import TypedMustache.Scope.Marker
import TypedMustache.Proofs.Outcome

/-! The markers of a scope balance. Opening and closing walk a chain of leading steps
separately: an inverted scope has one block for all its inverted steps, any other opens
its own block inside those of its steps, and the closing text is left out where the
opening one is an error. Both walks meet the same blocks, so there is one end for each
header, whatever values and shapes are nested in whatever order. -/

namespace TypedMustache

namespace Scope

/-- The ends of a number of blocks. -/
def blockEnds (n : Nat) : String := String.join (List.replicate n blockEnd)

theorem blockEnds_append (k n : Nat) : blockEnds k ++ blockEnds n = blockEnds (n + k) := by
  simp only [blockEnds, ← String.join_append, List.replicate_append_replicate, Nat.add_comm k n]

/-- The leading steps of a scope open what stands before its own header, as they do for
the scope that `same` makes of the last of them. -/
theorem headers_nested {entry : Entry} (h : entry.isInverted = false) (value : Expression)
    (shape : Except TypeError Shape) (enclosing : Scope) :
    (nested entry value shape enclosing).headers = do
      return (← (same enclosing).headers) ++ presence value (enclosing.depth + 1) (← shape) := by
  simp only [headers, h]
  cases enclosing.isStep <;> rfl

theorem headers_nested_inverted {entry : Entry} (h : entry.isInverted = true) (value : Expression)
    (shape : Except TypeError Shape) (enclosing : Scope) :
    (nested entry value shape enclosing).headers =
      (nested entry value shape enclosing).absences.map fun conditions => [.test conditions] := by
  simp only [headers, h, if_true]
  cases (nested entry value shape enclosing).absences <;> rfl

theorem isOk_opening {s : Scope} {blocks : List Header} (h : s.headers = .ok blocks) :
    s.opening.isOk = true := by
  simp [opening, h, Except.map, Except.isOk, Except.toBool]

theorem ownEnd_eq (value : Expression) (depth : Nat) (shape : Shape) :
    ownEnd (.ok shape) = blockEnds (presence value depth shape).length := by
  cases shape with
  | boolean nullable => cases nullable <;> simp [ownEnd, presence, blockEnds]
  | _ => simp [ownEnd, presence, blockEnds]

/-- There is one end for each header. -/
def Balanced (s : Scope) : Prop :=
  ∀ blocks, s.headers = .ok blocks → s.closing = blockEnds blocks.length

theorem Balanced.same {enclosing : Scope} (h : enclosing.Balanced) :
    (Scope.same enclosing).Balanced := by
  intro blocks hblocks
  simp only [headers, closing] at hblocks ⊢
  split at hblocks
  · next hstep => rw [if_pos hstep, h blocks hblocks]
  · next hstep =>
    cases hblocks
    rw [if_neg hstep]
    rfl

theorem Balanced.nested {enclosing : Scope} (h : enclosing.Balanced) (entry : Entry)
    (value : Expression) (shape : Except TypeError Shape) :
    (Scope.nested entry value shape enclosing).Balanced := by
  intro blocks hblocks
  have hopening := isOk_opening hblocks
  cases hentry : entry.isInverted with
  | true =>
    -- one block, however many conditions its header has
    rw [headers_nested_inverted hentry] at hblocks
    obtain ⟨conditions, -, rfl⟩ := Outcome.map_eq_ok.1 hblocks
    simp [closing, hopening, hentry, blockEnds]
  | false =>
    rw [headers_nested hentry, Outcome.bind_eq_ok] at hblocks
    obtain ⟨leading, hleading, hown⟩ := hblocks
    obtain ⟨shape, rfl, hown⟩ := Outcome.bind_eq_ok.1 hown
    cases hown
    have hsteps := h.same leading hleading
    simp only [closing] at hsteps
    simp only [closing, hopening, hentry, if_true, Bool.false_eq_true, if_false, hsteps,
      ownEnd_eq value (enclosing.depth + 1) shape, blockEnds_append, List.length_append]

end Scope

end TypedMustache
