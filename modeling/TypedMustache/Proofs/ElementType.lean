import TypedMustache.Proofs.MemberTypes
import TypedMustache.Proofs.Reachable

/-! The types of loop variables and of unwrapped values. They are read from the elements
of arrays and from the arguments of loops and optional values, where a wildcard is taken
for its upper bound. So they are wildcards exactly if a wildcard is the element of an array
or the bound of another, which Java has nowhere. Declarations of a well-formed type system
have none of these, but a member's type can come to have them when a receiver's wildcard
argument takes the place of a parameter that is exposed. Where no parameter is exposed,
every loop variable and every unwrapped value is of a type that can be written down. -/

namespace TypedMustache

open Outcome JavaType

/-- The type of what stands for a value of the shape inside its block. -/
def Shape.element? : Shape → Option JavaType
  | .iteration element => some element
  | .array element => some element
  | .optional element => some element
  | _ => none

namespace Model

variable (m : Model)

/-- Where the element of a section's shape is read from the type of its value. -/
theorem sectionShape_element {type : JavaType} {shape : Shape} {element : JavaType}
    (h : m.sectionShape type = .ok shape) (helement : shape.element? = some element) :
    ∃ ty, effectiveType type = .ok ty ∧
      (shape = .array element ∧ ty.component? = some element ∨
        shape = .iteration element ∧ m.iterableElement ty = element ∨
        shape = .optional element ∧ m.optionalElement ty = element) := by
  unfold sectionShape at h
  obtain ⟨ty, hty, h⟩ := bind_eq_ok.1 h
  refine ⟨ty, hty, ?_⟩
  split at h
  · next component hcomponent =>
    cases h
    cases helement
    exact .inl ⟨rfl, hcomponent⟩
  · obtain ⟨capability, -, h⟩ := bind_eq_ok.1 h
    split at h
    · split at h <;> cases h
      cases helement
    all_goals cases h
    all_goals cases helement
    · exact .inr (.inl ⟨rfl, rfl⟩)
    · exact .inr (.inr ⟨rfl, rfl⟩)

theorem shape_element {type : JavaType} {entry : Entry} {shape : Shape} {element : JavaType}
    (h : m.shape type entry = .ok shape) (helement : shape.element? = some element) :
    m.sectionShape type = .ok shape := by
  cases entry with
  | plain =>
    cases h
    cases helement
  | guard =>
    obtain ⟨ty, -, rfl⟩ := map_eq_ok.1 h
    cases hprimitive : ty.isPrimitive <;> simp [hprimitive, Shape.element?] at helement
  | positive => exact h
  | inverted => exact h
  | invertedGuard => exact h

/-- Whether a wildcard stands where a shape takes its element from a type: as the element
of an array, or as the bound of the argument of a loop or of an optional value. -/
def LeaksWildcard (ty : JavaType) : Shape → Prop
  | .array _ => ∃ element, ty.component? = some element ∧ element.isWildcard = true
  | .iteration _ => ∃ bound, m.inherited? ty .iterable 0 = some (.bounded .upper bound) ∧
      bound.isWildcard = true
  | .optional _ => ∃ bound, m.inherited? ty .optional 0 = some (.bounded .upper bound) ∧
      bound.isWildcard = true
  | _ => False

theorem isWildcard_typeArgument (ty : JavaType) (role : Role) (index : Nat) :
    (m.typeArgument ty role index).isWildcard = true ↔
      ∃ bound, m.inherited? ty role index = some (.bounded .upper bound) ∧
        bound.isWildcard = true := by
  rw [typeArgument_eq]
  cases m.inherited? ty role index with
  | none => simp [object, isWildcard]
  | some arg =>
    cases arg with
    | bounded side bound => cases side <;> simp [isWildcard, upperBound?, object]
    | wildcard side => simp [isWildcard, upperBound?, object]
    | _ => simp [isWildcard]

theorem isWildcard_element {type : JavaType} {shape : Shape} {element : JavaType}
    (h : m.sectionShape type = .ok shape) (helement : shape.element? = some element) :
    ∃ ty, effectiveType type = .ok ty ∧ (element.isWildcard = true ↔ m.LeaksWildcard ty shape) := by
  obtain ⟨ty, hty, helement⟩ := m.sectionShape_element h helement
  refine ⟨ty, hty, ?_⟩
  rcases helement with ⟨rfl, hcomponent⟩ | ⟨rfl, rfl⟩ | ⟨rfl, rfl⟩
  · simp [LeaksWildcard, hcomponent]
  · exact m.isWildcard_typeArgument ty .iterable 0
  · exact m.isWildcard_typeArgument ty .optional 0

variable {m}

theorem fits_element (hts : m.types.WellFormed) (hexposes : m.types.Unexposed) {type : JavaType}
    {shape : Shape} {element : JavaType} (htype : type.fits .argument = true)
    (h : m.sectionShape type = .ok shape) (helement : shape.element? = some element) :
    element.fits .elsewhere = true := by
  obtain ⟨ty, hty, helement⟩ := m.sectionShape_element h helement
  have hfits := fits_argument (fits_effectiveType htype hty)
  rcases helement with ⟨-, hcomponent⟩ | ⟨-, rfl⟩ | ⟨-, rfl⟩
  · exact fits_component? hfits hcomponent
  · exact fits_typeArgument hts hexposes hfits .iterable 0
  · exact fits_typeArgument hts hexposes hfits .optional 0

theorem type_rebind (value : Expression) (depth : Nat) (shape : Except TypeError Shape) :
    (Scope.rebind value depth shape).type = value.type ∨
      ∃ s, shape = .ok s ∧ s.element? = some (Scope.rebind value depth shape).type := by
  rcases shape with cause | shape
  · exact .inl rfl
  · cases shape with
    | iteration element => exact .inr ⟨_, rfl, rfl⟩
    | array element => exact .inr ⟨_, rfl, rfl⟩
    | optional element => exact .inr ⟨_, rfl, rfl⟩
    | _ => exact .inl rfl

theorem fits_rebind (hts : m.types.WellFormed) (hexposes : m.types.Unexposed) {value : Expression}
    (depth : Nat) (entry : Entry) (hvalue : value.type.fits .argument = true) :
    (Scope.rebind value depth (m.shape value.type entry)).type.fits .argument = true := by
  rcases type_rebind value depth (m.shape value.type entry) with h | ⟨shape, hshape, helement⟩
  · rwa [h]
  · exact fits_argument
      (fits_element hts hexposes hvalue (m.shape_element hshape helement) helement)

end Model

namespace Shop

theorem model_wellFormed : model.types.WellFormed :=
  ClassTable.wellFormed_toTypeSystem (by decide +kernel) (by decide +kernel)

theorem exists_section {path : String} {shape : Shape}
    (h : (page.getChild model path .positive).map (fun d => d.scope.shape) = .ok (.ok shape)) :
    ∃ c : Context, c.Reachable model (.declared "Page") ∧ c.scope.shape = .ok shape := by
  obtain ⟨c, hc, hshape⟩ := map_eq_ok.1 h
  exact ⟨c, page_reachable.child hc, hshape⟩

end Shop

namespace Context

variable {m : Model} {data : JavaType}

/-- Where no parameter is exposed, the wildcards in the types of all values are in place. -/
theorem Reachable.fits_value (hts : m.types.WellFormed) (hexposes : m.types.Unexposed)
    (hdata : data.fits .elsewhere = true) {c : Context} (hc : c.Reachable m data) :
    c.scope.value.type.fits .argument = true :=
  (hc.forall_values (P := fun e => e.type.fits .argument = true) (fits_argument hdata)
    (fun _ _ _ hvalue hfound => Model.fits_findMember hts hexposes hvalue hfound)
    (fun _ depth entry hvalue => Model.fits_rebind hts hexposes depth entry hvalue)).1

/-- A loop variable or an unwrapped value is of a wildcard type exactly if its value's type
leaks one, and never if no declaration exposes a parameter. -/
theorem isWildcard_element_iff (hts : m.types.WellFormed) (hdata : data.fits .elsewhere = true)
    {c : Context} (hc : c.Reachable m data) {shape : Shape} (hshape : c.scope.shape = .ok shape)
    {element : JavaType} (helement : shape.element? = some element) :
    ∃ ty, Model.effectiveType c.scope.value.type = .ok ty ∧
      (element.isWildcard = true ↔ m.LeaksWildcard ty shape) ∧
      (m.types.Unexposed → element.isWildcard = false) := by
  obtain ⟨entry, hentry⟩ := hc.shape_eq
  have hsection := m.shape_element (hentry.symm.trans hshape) helement
  obtain ⟨ty, hty, hleaks⟩ := m.isWildcard_element hsection helement
  refine ⟨ty, hty, hleaks, ?_⟩
  intro hexposes
  have hvalue := hc.fits_value hts hexposes hdata
  exact isWildcard_of_fits (Model.fits_element hts hexposes hvalue hsection helement)

/-- The items of the page are met one by one, and the type of an item is no wildcard. -/
theorem isWildcard_element_iff_items :
    Shop.model.types.WellFormed ∧ (declared "Page").fits .elsewhere = true ∧
      ∃ c : Context, c.Reachable Shop.model (.declared "Page") ∧
        c.scope.shape = .ok (.iteration (.declared "Item")) ∧
        ∃ ty, Model.effectiveType c.scope.value.type = .ok ty ∧
          ((declared "Item").isWildcard = true ↔
            Shop.model.LeaksWildcard ty (.iteration (.declared "Item"))) ∧
          (Shop.model.types.Unexposed → (declared "Item").isWildcard = false) := by
  have h : (Shop.page.getChild Shop.model "items" .positive).map
      (fun d => d.scope.shape) = .ok (.ok (.iteration (.declared "Item"))) := by
    decide +kernel
  obtain ⟨c, hc, hshape⟩ := Shop.exists_section h
  exact ⟨Shop.model_wellFormed, rfl, c, hc, hshape,
    isWildcard_element_iff Shop.model_wellFormed rfl hc hshape rfl⟩

/-- A shelf of some kind of items shows its contents as an array of a wildcard, whose loop
variable is of no type. -/
theorem contents_element_isWildcard :
    Shop.model.types.WellFormed ∧ (declared "Page").fits .elsewhere = true ∧
      ∃ (c : Context) (shape : Shape) (element : JavaType),
        c.Reachable Shop.model (.declared "Page") ∧ c.scope.shape = .ok shape ∧
        shape.element? = some element ∧ element.isWildcard = true := by
  have h : (Shop.page.getChild Shop.model "shelf.contents" .positive).map
      (fun d => d.scope.shape) = .ok (.ok (.array (.bounded .upper (.declared "Item")))) := by
    decide +kernel
  obtain ⟨c, hc, hshape⟩ := Shop.exists_section h
  exact ⟨Shop.model_wellFormed, rfl, c, _, _, hc, hshape, rfl, rfl⟩

end Context

end TypedMustache
