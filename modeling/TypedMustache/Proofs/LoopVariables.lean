import TypedMustache.Proofs.MarkerBalance

/-! Loop variables. A loop names its variable for the depth of its scope. A scope that
stands for the one it encloses keeps that one's depth, and any other is deeper than all
that is around it, so no two loops on a chain of scopes have one depth, whatever lies
between them. Depths are written in decimal, and different numbers are written differently. -/

namespace TypedMustache

/-- Whether the block of the shape is run once for each element of the value. -/
def Shape.isLoop : Shape → Bool
  | .iteration _ => true
  | .array _ => true
  | _ => false

namespace Scope

theorem loopVariable_injective : Function.Injective loopVariable := by
  intro i j h
  have hdigits : toString i = toString j := (String.append_right_inj _).1 h
  -- the digits of a number read back as the number
  have hread := congrArg (fun text => Nat.ofDigitChars 10 text.toList 0) hdigits
  simpa [Nat.toString_eq_ofList_toDigits] using hread

/-- Whether the scope is entered by a loop, whose variable stands for the value inside. -/
def isLoop (s : Scope) : Bool := !s.isInverted && s.shape.toOption.any Shape.isLoop

/-- The variable that the scope binds, if it is a loop. -/
def loopVariable? (s : Scope) : Option String := if s.isLoop then some s.current.text else none

/-- The loop variables that are in scope, innermost first. -/
def loopVariables (s : Scope) : List String := s.chain.filterMap loopVariable?

theorem loopVariable?_eq_some {s : Scope} {x : String} (h : s.loopVariable? = some x) :
    s.isLoop = true ∧ s.current.text = x := by
  simpa [loopVariable?] using h

theorem isLoop_cases {s : Scope} (h : s.isLoop = true) :
    ∃ entry value shape enclosing, s = nested entry value (.ok shape) enclosing ∧
      entry.isInverted = false ∧
      ∃ element, shape = .iteration element ∨ shape = .array element := by
  cases s with
  | root data => cases h
  | same enclosing => cases h
  | nested entry value outcome enclosing =>
    simp only [isLoop, isInverted, Scope.shape, Bool.and_eq_true, Bool.not_eq_true'] at h
    obtain ⟨hentry, hloop⟩ := h
    cases outcome with
    | error cause => cases hloop
    | ok shape =>
      refine ⟨entry, value, shape, enclosing, rfl, hentry, ?_⟩
      cases shape with
      | iteration element => exact ⟨element, .inl rfl⟩
      | array element => exact ⟨element, .inr rfl⟩
      | _ => cases hloop

/-- The variable of a loop is named for the depth of its scope. -/
theorem current_of_isLoop {s : Scope} (h : s.isLoop = true) :
    s.current.text = loopVariable s.depth := by
  obtain ⟨entry, value, shape, enclosing, rfl, hentry, element, rfl | rfl⟩ := isLoop_cases h
  · simp [current, hentry, rebind, Expression.derive, depth]
  · simp [current, hentry, rebind, Expression.derive, depth]

theorem forall_chain {P : Scope → Prop}
    (houter : ∀ e outer : Scope, e.enclosing? = some outer → P e → P outer) :
    ∀ {s : Scope}, P s → ∀ e ∈ s.chain, P e
  | .root _, hs => List.forall_mem_singleton.2 hs
  | .same enclosing, hs =>
    List.forall_mem_cons.2 ⟨hs, forall_chain houter (houter _ enclosing rfl hs)⟩
  | .nested _ _ _ enclosing, hs =>
    List.forall_mem_cons.2 ⟨hs, forall_chain houter (houter _ enclosing rfl hs)⟩

theorem depth_le_of_enclosing? {e outer : Scope} (h : e.enclosing? = some outer) :
    outer.depth ≤ e.depth := by
  cases e with
  | root data => cases h
  | same enclosing =>
    cases h
    exact Nat.le_refl _
  | nested entry value shape enclosing =>
    cases h
    exact Nat.le_succ _

theorem depth_le_of_mem_chain {s e : Scope} (he : e ∈ s.chain) : e.depth ≤ s.depth :=
  forall_chain (P := fun e => e.depth ≤ s.depth)
    (fun _ _ houter hle => Nat.le_trans (depth_le_of_enclosing? houter) hle) (Nat.le_refl _) e he

theorem depth_of_mem_loopVariables {s : Scope} {x : String} (h : x ∈ s.loopVariables) :
    ∃ d ≤ s.depth, x = loopVariable d := by
  obtain ⟨e, he, hx⟩ := List.mem_filterMap.1 h
  obtain ⟨hloop, rfl⟩ := loopVariable?_eq_some hx
  exact ⟨e.depth, depth_le_of_mem_chain he, current_of_isLoop hloop⟩

theorem nodup_loopVariables : ∀ s : Scope, s.loopVariables.Nodup
  | .root _ => List.nodup_nil
  | .same enclosing => nodup_loopVariables enclosing
  | .nested entry value shape enclosing => by
    have ih := nodup_loopVariables enclosing
    cases hx : (nested entry value shape enclosing).loopVariable? with
    | none =>
      rw [loopVariables, chain, List.filterMap_cons_none hx]
      exact ih
    | some x =>
      rw [loopVariables, chain, List.filterMap_cons_some hx]
      refine List.nodup_cons.2 ⟨?_, ih⟩
      intro hmem
      obtain ⟨hloop, rfl⟩ := loopVariable?_eq_some hx
      obtain ⟨d, hd, heq⟩ := depth_of_mem_loopVariables hmem
      have hdepth := loopVariable_injective ((current_of_isLoop hloop).symm.trans heq)
      simp only [depth] at hdepth
      omega

/-- The innermost header of a loop binds its variable. -/
theorem header_of_isLoop {s : Scope} (h : s.isLoop = true) {blocks : List Header}
    (hblocks : s.headers = .ok blocks) :
    ∃ element, blocks.getLast? = some (.loop element s.current.text s.value.text) := by
  rw [current_of_isLoop h]
  obtain ⟨entry, value, shape, enclosing, rfl, hentry, element, hshape⟩ := isLoop_cases h
  rw [headers_nested hentry, Outcome.bind_eq_ok] at hblocks
  obtain ⟨leading, -, hblocks⟩ := hblocks
  cases hblocks
  obtain rfl | rfl := hshape
  · exact ⟨element, List.getLast?_concat⟩
  · exact ⟨element, List.getLast?_concat⟩

/-- The loops on a chain of scopes bind different variables, each the one that its own header
names. -/
theorem loops_bind_distinct_variables (s : Scope) :
    s.loopVariables.Nodup ∧
      ∀ e ∈ s.chain, e.isLoop = true → ∀ blocks, e.headers = .ok blocks →
        ∃ element, blocks.getLast? = some (.loop element e.current.text e.value.text) := by
  refine ⟨nodup_loopVariables s, ?_⟩
  intro e _ hloop blocks hblocks
  exact header_of_isLoop hloop hblocks

/-- A guard between two loops takes a depth, and a scope that stands for a loop takes none. -/
example (data rows step cells : Expression) (row cell : JavaType) :
    (nested .positive cells (.ok (.iteration cell)) (nested .guard step (.ok .nullable)
      (same (nested .positive rows (.ok (.array row)) (root data))))).loopVariables =
      ["element3", "element1"] := by cbv

end Scope

end TypedMustache
