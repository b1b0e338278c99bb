import Mathlib.Data.List.Nodup
import Mathlib.Data.List.Perm.Subperm
import TypedMustache.TypeSystem.Ancestors

/-! The names above a type, told by chains of direct supertypes. The search goes up level by
level and keeps what it has found. All names whose supertypes it has not read are on its last
level, so it is finished when a round finds nothing new. Every round before that finds a name
more, and there are no more names to find than there are rounds. So it finds all that a chain
leads to, however the hierarchy is shaped. -/

namespace TypedMustache.TypeSystem

variable {ts : TypeSystem}

theorem mem_directSupertypeNames {name next : String} :
    next ∈ ts.directSupertypeNames name ↔
      ∃ ty ∈ ts.directSupertypes name, ty.baseName? = some next :=
  List.mem_filterMap

/-- Whether a chain of so many direct supertypes leads from a name up to another. -/
inductive Above (ts : TypeSystem) : Nat → String → String → Prop where
  | refl (name : String) : Above ts 0 name name
  | step {n : Nat} {name next target : String} (hnext : next ∈ ts.directSupertypeNames name)
      (h : Above ts n next target) : Above ts (n + 1) name target

theorem above_zero {name target : String} : ts.Above 0 name target ↔ name = target := by
  constructor
  · intro h
    cases h
    rfl
  · rintro rfl
    exact .refl name

theorem above_succ {n : Nat} {name target : String} :
    ts.Above (n + 1) name target ↔
      ∃ next ∈ ts.directSupertypeNames name, ts.Above n next target := by
  constructor
  · intro h
    cases h with
    | step hnext h => exact ⟨_, hnext, h⟩
  · rintro ⟨next, hnext, h⟩
    exact .step hnext h

theorem Above.trans {m n : Nat} {name middle target : String} (h : ts.Above m name middle)
    (h' : ts.Above n middle target) : ts.Above (m + n) name target := by
  induction h with
  | refl name => rwa [Nat.zero_add]
  | step hnext _ ih =>
    rw [Nat.add_right_comm]
    exact .step hnext (ih h')

theorem mem_supertypeNames_of_direct {name next : String}
    (h : next ∈ ts.directSupertypeNames name) : next ∈ ts.supertypeNames := by
  obtain ⟨ty, hty, hnext⟩ := mem_directSupertypeNames.1 h
  exact ts.mem_supertypeNames name ty hty next hnext

/-! ### One round -/

theorem mem_nextLevel {found level : List String} {x : String} :
    x ∈ ts.nextLevel found level ↔
      (∃ l ∈ level, x ∈ ts.directSupertypeNames l) ∧ x ∉ found := by
  simp [nextLevel]

theorem nodup_eraseDups : ∀ names : List String, names.eraseDups.Nodup
  | [] => List.nodup_nil
  | name :: rest => by
    rw [List.eraseDups_cons, List.nodup_cons]
    refine ⟨by simp, nodup_eraseDups (rest.filter fun x => !x == name)⟩
  termination_by names => names.length
  decreasing_by exact Nat.lt_succ_of_le (List.length_filter_le _ _)

/-- What a search keeps: each name is found once, and all names found have their supertypes
found, too, but those on the last level, which are still to be read. -/
structure Searched (ts : TypeSystem) (found level : List String) : Prop where
  nodup : found.Nodup
  subset : found ⊆ ts.supertypeNames
  read : ∀ x ∈ found, x ∉ level → ts.directSupertypeNames x ⊆ found

theorem searched_nil (level : List String) : ts.Searched [] level :=
  ⟨List.nodup_nil, List.nil_subset _, fun _ hx => absurd hx (List.not_mem_nil)⟩

namespace Searched

variable {found level : List String}

theorem subset_append (h : ts.Searched found level) {x : String} (hx : x ∈ level ∨ x ∈ found) :
    ts.directSupertypeNames x ⊆ found ++ ts.nextLevel found level := by
  intro y hy
  by_cases hfound : y ∈ found
  · exact List.mem_append_left _ hfound
  · have hlevel : x ∈ level := by
      by_contra hlevel
      exact hfound (h.read x (hx.resolve_left hlevel) hlevel hy)
    exact List.mem_append_right _ (mem_nextLevel.2 ⟨⟨x, hlevel, hy⟩, hfound⟩)

theorem next (h : ts.Searched found level) :
    ts.Searched (found ++ ts.nextLevel found level) (ts.nextLevel found level) where
  nodup := by
    refine List.Nodup.append h.nodup (nodup_eraseDups _) ?_
    intro x hx hnext
    exact (mem_nextLevel.1 hnext).2 hx
  subset := by
    refine List.append_subset.2 ⟨h.subset, ?_⟩
    intro x hx
    obtain ⟨⟨l, -, hx⟩, -⟩ := mem_nextLevel.1 hx
    exact mem_supertypeNames_of_direct hx
  read := by
    intro x hx hlevel
    exact h.subset_append (.inr ((List.mem_append.1 hx).resolve_right hlevel))

end Searched

/-! ### All rounds -/

theorem climb_succ (rounds : Nat) (found level : List String) :
    ts.climb (rounds + 1) found level =
      if ts.nextLevel found level = [] then found
      else ts.climb rounds (found ++ ts.nextLevel found level) (ts.nextLevel found level) := by
  rw [climb]
  cases ts.nextLevel found level <;> rfl

theorem subset_climb (rounds : Nat) (found level : List String) :
    found ⊆ ts.climb rounds found level := by
  induction rounds generalizing found level with
  | zero => exact List.Subset.refl found
  | succ rounds ih =>
    rw [climb_succ]
    split
    · exact List.Subset.refl found
    · exact List.Subset.trans (List.subset_append_left _ _) (ih _ _)

theorem above_of_mem_climb {rounds : Nat} {found level : List String} {x : String}
    (h : x ∈ ts.climb rounds found level) :
    x ∈ found ∨ ∃ l ∈ level, ∃ n, ts.Above (n + 1) l x := by
  induction rounds generalizing found level with
  | zero => exact .inl h
  | succ rounds ih =>
    rw [climb_succ] at h
    split at h
    · exact .inl h
    · rcases ih h with hx | ⟨next, hnext, n, habove⟩
      · rcases List.mem_append.1 hx with hx | hx
        · exact .inl hx
        · obtain ⟨⟨l, hl, hx⟩, -⟩ := mem_nextLevel.1 hx
          exact .inr ⟨l, hl, 0, .step hx (.refl x)⟩
      · obtain ⟨⟨l, hl, hnext⟩, -⟩ := mem_nextLevel.1 hnext
        exact .inr ⟨l, hl, n + 1, .step hnext habove⟩

/-- With as many rounds left as there are names to find, the search finds the supertypes of all
that it finds. -/
theorem Searched.closed_climb {rounds : Nat} {found level : List String}
    (h : ts.Searched found level) (hrounds : ts.supertypeNames.length ≤ rounds + found.length)
    {x : String} (hx : x ∈ level ∨ x ∈ ts.climb rounds found level) :
    ts.directSupertypeNames x ⊆ ts.climb rounds found level := by
  induction rounds generalizing found level with
  | zero =>
    -- as many names are found as there are, so all of them are
    have hperm := (h.nodup.subperm h.subset).perm_of_length_le (by omega)
    exact fun y hy => hperm.symm.subset (mem_supertypeNames_of_direct hy)
  | succ rounds ih =>
    rw [climb_succ] at hx ⊢
    split at hx
    · next hnext =>
      rw [if_pos hnext]
      have hclosed := h.subset_append hx
      rwa [hnext, List.append_nil] at hclosed
    · next hnext =>
      rw [if_neg hnext]
      have hpos := List.length_pos_iff.2 hnext
      have hlength : ts.supertypeNames.length ≤
          rounds + (found ++ ts.nextLevel found level).length := by
        rw [List.length_append]
        omega
      rcases hx with hx | hx
      · exact List.Subset.trans (h.subset_append (.inl hx)) (subset_climb _ _ _)
      · exact ih h.next hlength (.inr hx)

/-- A chain does not leave names that have the supertypes of all of them, and of those where it
starts, among them. -/
theorem Above.mem_of_closed {start found : List String} {n : Nat} {name target : String}
    (h : ts.Above (n + 1) name target)
    (hclosed : ∀ x, x ∈ start ∨ x ∈ found → ts.directSupertypeNames x ⊆ found)
    (hname : name ∈ start ∨ name ∈ found) : target ∈ found := by
  induction n generalizing name with
  | zero =>
    obtain ⟨next, hnext, htarget⟩ := above_succ.1 h
    exact above_zero.1 htarget ▸ hclosed name hname hnext
  | succ n ih =>
    obtain ⟨next, hnext, hrest⟩ := above_succ.1 h
    exact ih hrest (.inr (hclosed name hname hnext))

theorem mem_ancestors_iff {name target : String} :
    target ∈ ts.ancestors name ↔ ∃ n, ts.Above (n + 1) name target := by
  constructor
  · intro h
    obtain ⟨l, hl, n, habove⟩ := (above_of_mem_climb h).resolve_left (List.not_mem_nil)
    rw [List.mem_singleton] at hl
    exact ⟨n, hl ▸ habove⟩
  · rintro ⟨n, habove⟩
    refine habove.mem_of_closed (fun x hx => ?_) (.inl (List.mem_singleton_self name))
    exact (searched_nil [name]).closed_climb (by simp) hx

/-- A name is a type's own or above it if a chain of any length leads to it. -/
theorem eq_or_mem_ancestors_iff {name target : String} :
    name = target ∨ target ∈ ts.ancestors name ↔ ∃ n, ts.Above n name target := by
  rw [mem_ancestors_iff]
  constructor
  · rintro (rfl | ⟨n, h⟩)
    · exact ⟨0, .refl name⟩
    · exact ⟨n + 1, h⟩
  · rintro ⟨n, h⟩
    cases n with
    | zero => exact .inl (above_zero.1 h)
    | succ n => exact .inr ⟨n, h⟩

end TypedMustache.TypeSystem
