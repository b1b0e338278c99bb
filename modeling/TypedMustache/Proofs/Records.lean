import Mathlib.Data.List.Nodup
import TypedMustache.Json.Record

/-! Records in the fields of an object. A reader takes the fields whose names it knows, where none
may be given twice, and does not see the others. So what it takes is the same, but for the order,
whatever else the object has. -/

namespace TypedMustache.Json

/-- A reader takes the fields that it knows, unless one of them is given twice. -/
theorem fieldsAmong?_record (known : List String) (fields : List (String × Json)) :
    fieldsAmong? known (fields.map fun field => (some field.1, field.2)) =
      if ((fields.filter fun field => known.contains field.1).map Prod.fst).Nodup then
        some (fields.filter fun field => known.contains field.1)
      else none := by
  have hnamed : (fields.map fun field => (some field.1, field.2)).mapM
      (fun field : Text × Json => field.1.map fun name => (name, field.2)) = some fields := by
    rw [List.mapM_map]
    exact (List.mapM_pure (f := id)).trans (congrArg some (List.map_id fields))
  simp only [fieldsAmong?, hnamed, Option.bind_eq_bind, Option.bind_some]
  rfl

/-- What is taken of an object does not depend on what else it has, nor on the order of its
fields. -/
theorem exists_fieldsAmong? {known : List String} {kept added given : List (String × Json)}
    (hgiven : given.Perm (kept ++ added)) (hkept : ∀ field ∈ kept, field.1 ∈ known)
    (hnodup : (kept.map Prod.fst).Nodup) (hadded : ∀ field ∈ added, field.1 ∉ known) :
    ∃ found, fieldsAmong? known (given.map fun field => (some field.1, field.2)) = some found ∧
      found.Perm kept := by
  have hall : kept.filter (fun field => known.contains field.1) = kept :=
    List.filter_eq_self.2 fun field hfield => by simpa using hkept field hfield
  have hnone : added.filter (fun field => known.contains field.1) = [] :=
    List.filter_eq_nil_iff.2 fun field hfield => by simpa using hadded field hfield
  have hfound := hgiven.filter fun field => known.contains field.1
  rw [List.filter_append, hall, hnone, List.append_nil] at hfound
  exact ⟨_, by rw [fieldsAmong?_record, if_pos ((hfound.map Prod.fst).nodup_iff.2 hnodup)], hfound⟩

theorem lookup_of_perm {fields fields' : List (String × Json)} (h : fields.Perm fields')
    (hnodup : (fields'.map Prod.fst).Nodup) (name : String) :
    fields.lookup name = fields'.lookup name := by
  induction h with
  | nil => rfl
  | @cons field fields fields' h ih =>
    rw [List.lookup_cons, List.lookup_cons, ih (List.nodup_cons.1 hnodup).2]
  | swap a b fields =>
    obtain ⟨x, u⟩ := a
    obtain ⟨y, v⟩ := b
    have hne : x ≠ y := by
      simp only [List.map_cons, List.nodup_cons, List.mem_cons, not_or] at hnodup
      exact hnodup.1.1
    by_cases hx : name = x
    · simp [List.lookup_cons, hx, beq_false_of_ne hne]
    · simp [List.lookup_cons, beq_false_of_ne hx]
  | trans h₁ h₂ ih₁ ih₂ =>
    rw [ih₁ ((h₂.map Prod.fst).nodup_iff.2 hnodup), ih₂ hnodup]

theorem eq_or_eq_of_perm_pair {α : Type} {l : List α} {a b : α} (h : l.Perm [a, b]) :
    l = [a, b] ∨ l = [b, a] := by
  match l, h.length_eq with
  | [x, y], _ =>
    rcases List.mem_pair.1 (h.mem_iff.1 (List.mem_cons_self (a := x))) with rfl | rfl
    · have hy := List.perm_singleton.1 ((List.perm_cons _).1 h)
      exact .inl (by rw [hy])
    · have hy := List.perm_singleton.1 ((List.perm_cons _).1 (h.trans (List.Perm.swap _ _ _)))
      exact .inr (by rw [hy])

end TypedMustache.Json
