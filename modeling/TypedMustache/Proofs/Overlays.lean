import Mathlib.Data.List.Forall2
import Mathlib.Logic.Function.Basic
import TypedMustache.Config.Document
import TypedMustache.Proofs.JsonText
import TypedMustache.Proofs.Records

/-! Documents as overlays. A record has fields, each with a name in documents and values of its
own. Replacing one field leaves the others, so what a row of replacements makes of a record does
not depend on their order if no field is replaced twice: each field that is given has the value
given, and each other one what it had. The logging part of a configuration is such a record, and
so is the configuration, one of whose fields is the logging part. -/

namespace TypedMustache

open Json (record)

/-- The values that an object has under a name. -/
def Json.valuesOf (name : String) (fields : List (String × Json)) : List Json :=
  fields.filterMap fun field => if field.1 = name then some field.2 else none

namespace Json

variable {name : String} {fields : List (String × Json)}

theorem valuesOf_cons_self (j : Json) :
    valuesOf name ((name, j) :: fields) = j :: valuesOf name fields := by
  simp [valuesOf]

theorem valuesOf_cons_of_ne {field : String × Json} (h : field.1 ≠ name) :
    valuesOf name (field :: fields) = valuesOf name fields := by
  simp [valuesOf, h]

theorem valuesOf_eq_nil_iff : valuesOf name fields = [] ↔ name ∉ fields.map Prod.fst := by
  simp only [valuesOf, List.filterMap_eq_nil_iff, List.mem_map, not_exists, not_and]
  simp

theorem valuesOf_filter {p : String → Bool} (h : p name = true) :
    valuesOf name (fields.filter fun field => p field.1) = valuesOf name fields := by
  rw [valuesOf, List.filterMap_filter]
  refine List.filterMap_congr fun field _ => ?_
  by_cases hname : field.1 = name
  · simp [hname, h]
  · simp [hname]

end Json

/-- A record that is read field by field from a document. -/
structure Layout (R : Type) where
  Field : Type
  Value : Field → Type
  name : Field → String
  get : (f : Field) → R → Value f
  set : (f : Field) → Value f → R → R
  /-- Whether a document writes a value of a field in some form. -/
  Writes : (f : Field) → Value f → Json → Prop
  all : List Field
  overlay : R → String × Json → Option R
  mem_all : ∀ f, f ∈ all
  nodup_names : (all.map name).Nodup
  get_set : ∀ f v r, get f (set f v r) = v
  get_set_of_ne : ∀ f g v r, g ≠ f → get g (set f v r) = get g r
  overlay_eq : ∀ f v j r, Writes f v j → overlay r (name f, j) = some (set f v r)

namespace Layout

variable {R : Type} (S : Layout R)

/-- The names that a reader of the record knows. -/
def known : List String := S.all.map S.name

/-- Whether an object gives values for some fields, each in one place, and none for the others. -/
def Gives (fields : List (String × Json)) (given : ∀ f, Option (S.Value f)) : Prop :=
  ∀ f, List.Forall₂ (S.Writes f) (given f).toList (Json.valuesOf (S.name f) fields)

variable {S} {fields : List (String × Json)} {given : ∀ f, Option (S.Value f)}

theorem mem_known {x : String} : x ∈ S.known ↔ ∃ f, S.name f = x := by
  simp [known, S.mem_all]

theorem name_injective : Function.Injective S.name := fun f g h =>
  List.inj_on_of_nodup_map S.nodup_names (S.mem_all f) (S.mem_all g) h

theorem eq_none_of_gives {f : S.Field} (h : S.Gives fields given)
    (hnone : Json.valuesOf (S.name f) fields = []) : given f = none := by
  have hf := h f
  rw [hnone] at hf
  cases hg : given f with
  | none => rfl
  | some v =>
    rw [hg] at hf
    cases hf

open Classical in
/-- The first field is read as a value that is given for it. No field after it has its name, and
those give the rest. -/
theorem exists_of_gives_cons {f : S.Field} {j : Json}
    (h : S.Gives ((S.name f, j) :: fields) given) :
    ∃ v, given f = some v ∧ S.Writes f v j ∧ S.name f ∉ fields.map Prod.fst ∧
      S.Gives fields (Function.update given f none) := by
  have hf := h f
  rw [Json.valuesOf_cons_self] at hf
  cases hg : given f with
  | none =>
    rw [hg] at hf
    cases hf
  | some v =>
    rw [hg] at hf
    cases hf with
    | cons hj hrest =>
      have honce : Json.valuesOf (S.name f) fields = [] := List.forall₂_nil_left_iff.1 hrest
      refine ⟨v, rfl, hj, Json.valuesOf_eq_nil_iff.1 honce, fun g => ?_⟩
      by_cases hgf : g = f
      · subst hgf
        rw [Function.update_self, honce]
        exact .nil
      · have hrest := h g
        rw [Json.valuesOf_cons_of_ne fun heq => hgf (name_injective heq.symm)] at hrest
        rwa [Function.update_of_ne hgf]

theorem nodup_of_gives (hknown : ∀ field ∈ fields, field.1 ∈ S.known) (h : S.Gives fields given) :
    (fields.map Prod.fst).Nodup := by
  induction fields generalizing given with
  | nil => exact .nil
  | cons field fields ih =>
    obtain ⟨x, j⟩ := field
    obtain ⟨hx, hrestKnown⟩ := List.forall_mem_cons.1 hknown
    obtain ⟨f, rfl⟩ := mem_known.1 hx
    obtain ⟨-, -, -, honce, hrest⟩ := exists_of_gives_cons h
    exact List.nodup_cons.2 ⟨honce, ih hrestKnown hrest⟩

open Classical in
/-- Fields that are given replace what a record has, in whatever order they come. -/
theorem exists_foldlM_overlay (hknown : ∀ field ∈ fields, field.1 ∈ S.known)
    (h : S.Gives fields given) (r : R) :
    ∃ r', fields.foldlM S.overlay r = some r' ∧
      ∀ f, S.get f r' = (given f).getD (S.get f r) := by
  induction fields generalizing given r with
  | nil => exact ⟨r, rfl, fun f => by rw [eq_none_of_gives h rfl, Option.getD_none]⟩
  | cons field fields ih =>
    obtain ⟨x, j⟩ := field
    obtain ⟨hx, hrestKnown⟩ := List.forall_mem_cons.1 hknown
    obtain ⟨f, rfl⟩ := mem_known.1 hx
    obtain ⟨v, hv, hj, -, hrest⟩ := exists_of_gives_cons h
    obtain ⟨r', hr', hget⟩ := ih hrestKnown hrest (S.set f v r)
    refine ⟨r', ?_, fun g => ?_⟩
    · rw [List.foldlM_cons, S.overlay_eq f v j r hj]
      exact hr'
    · rw [hget g]
      by_cases hgf : g = f
      · subst hgf
        rw [Function.update_self, hv, Option.getD_none, S.get_set, Option.getD_some]
      · rw [Function.update_of_ne hgf, S.get_set_of_ne f g v r hgf]

/-- An object that gives some fields is read as the record with these fields replaced. What else
the object has is not seen. -/
theorem exists_given? (h : S.Gives fields given) (r : R) :
    ∃ r', ((Config.given? S.known (record fields)).bind fun found => found.foldlM S.overlay r) =
        some r' ∧ ∀ f, S.get f r' = (given f).getD (S.get f r) := by
  have hknown : ∀ field ∈ fields.filter (fun field => S.known.contains field.1),
      field.1 ∈ S.known := fun field hfield => by simpa using (List.mem_filter.1 hfield).2
  have hgives : S.Gives (fields.filter fun field => S.known.contains field.1) given := fun f => by
    have hf : S.known.contains (S.name f) = true := by simpa using mem_known.2 ⟨f, rfl⟩
    rw [Json.valuesOf_filter hf]
    exact h f
  obtain ⟨r', hr', hget⟩ := exists_foldlM_overlay hknown hgives r
  refine ⟨r', ?_, hget⟩
  have hfound : Config.given? S.known (record fields) =
      some (fields.filter fun field => S.known.contains field.1) := by
    rw [Config.given?.eq_def]
    exact (Json.fieldsAmong?_record _ _).trans (if_pos (nodup_of_gives hknown hgives))
  rw [hfound, Option.bind_some]
  exact hr'

theorem valuesOf_map (written : S.Field → Json) {all : List S.Field} (hall : (all.map S.name).Nodup)
    {f : S.Field} (hf : f ∈ all) :
    Json.valuesOf (S.name f) (all.map fun g => (S.name g, written g)) = [written f] := by
  induction all with
  | nil => cases hf
  | cons g all ih =>
    rw [List.map_cons, List.nodup_cons] at hall
    rw [List.map_cons]
    by_cases hgf : S.name g = S.name f
    · have hnone : S.name f ∉ (all.map fun g => (S.name g, written g)).map Prod.fst := by
        rw [List.map_map]
        exact hgf ▸ hall.1
      rw [name_injective hgf, Json.valuesOf_cons_self, Json.valuesOf_eq_nil_iff.2 hnone]
    · have hrest : f ∈ all := (List.mem_cons.1 hf).resolve_left fun heq => hgf (heq ▸ rfl)
      rw [Json.valuesOf_cons_of_ne hgf, ih hall.2 hrest]

theorem gives_map (value : ∀ f, S.Value f) (written : S.Field → Json)
    (h : ∀ f, S.Writes f (value f) (written f)) :
    S.Gives (S.all.map fun f => (S.name f, written f)) fun f => some (value f) := fun f => by
  rw [valuesOf_map written S.nodup_names (S.mem_all f)]
  exact .cons (h f) .nil

end Layout

end TypedMustache
