import Mathlib.Order.Lattice.Nat
import Mathlib.Logic.Function.Iterate
import TypedMustache.ClassTable.Basic
import TypedMustache.Proofs.Ancestry

/-! The order in which the names above a type are found. A walk keeps the names found so far and
a queue of those among them whose supertypes are still to be read. It takes one name at a time
off the front of the queue, so it reads a whole level before the next one, and comes to what the
search level by level finds. It ends: a name is queued once, when it is found, and only finitely
many can be. After `n` levels all names within `n` supertypes are found, the last level holds
those that are `n` away from the start, and so no name is found before a nearer one. -/

namespace TypedMustache.TypeSystem

variable {ts : TypeSystem}

/-! ### One name at a time -/

/-- A walk up from a type. Whatever has been found counts as seen. -/
structure Walk where
  found : List String
  queue : List String
  deriving DecidableEq

namespace Walk

/-- The start is queued and not seen, so it can still be found above itself. -/
def start (name : String) : Walk := ⟨[], [name]⟩

/-- A name that has not been seen is found, and queued. -/
def meet (w : Walk) (name : String) : Walk :=
  if name ∈ w.found then w else ⟨w.found ++ [name], w.queue ++ [name]⟩

/-- Takes a name off the queue and meets its direct supertypes. With no name left the walk has
come to its end. -/
def next (ts : TypeSystem) : Walk → Walk
  | ⟨found, []⟩ => ⟨found, []⟩
  | ⟨found, name :: queue⟩ => (ts.directSupertypeNames name).foldl meet ⟨found, queue⟩

/-- The names that are not in `found`, each once. -/
def unseen (found names : List String) : List String :=
  (names.filter (!found.contains ·)).eraseDups

theorem unseen_cons_of_mem {found names : List String} {name : String} (h : name ∈ found) :
    unseen found (name :: names) = unseen found names := by
  simp [unseen, h]

theorem unseen_cons_of_notMem {found names : List String} {name : String} (h : name ∉ found) :
    unseen found (name :: names) = name :: unseen (found ++ [name]) names := by
  have hfilter : (names.filter (!found.contains ·)).filter (fun x => !x == name) =
      names.filter (!(found ++ [name]).contains ·) := by
    rw [List.filter_filter]
    refine List.filter_congr fun x _ => ?_
    by_cases hx : x = name <;> simp [hx]
  rw [unseen, List.filter_cons_of_pos (by simpa using h), List.eraseDups_cons, hfilter, unseen]

theorem foldl_meet (names found queue : List String) :
    names.foldl meet ⟨found, queue⟩ =
      ⟨found ++ unseen found names, queue ++ unseen found names⟩ := by
  induction names generalizing found queue with
  | nil => simp [unseen]
  | cons name names ih =>
    rw [List.foldl_cons, meet]
    split
    · next h => rw [ih, unseen_cons_of_mem h]
    · next h =>
      rw [ih, unseen_cons_of_notMem h]
      simp only [List.append_assoc, List.singleton_append]

/-- Names at the front of the queue are taken off one by one, while what they lead to is put
behind the others. -/
theorem iterate_next_level (level found later : List String) :
    (next ts)^[level.length] ⟨found, level ++ later⟩ =
      (level.flatMap ts.directSupertypeNames).foldl meet ⟨found, later⟩ := by
  induction level generalizing found later with
  | nil => rfl
  | cons name level ih =>
    have hnext : next ts ⟨found, name :: level ++ later⟩ =
        (ts.directSupertypeNames name).foldl meet ⟨found, level ++ later⟩ := rfl
    rw [List.length_cons, Function.iterate_succ_apply, hnext, foldl_meet, List.append_assoc, ih,
      List.flatMap_cons, List.foldl_append, foldl_meet (ts.directSupertypeNames name) found later]

/-- A level is read by as many steps as it has names, and leaves the next one in the queue. -/
theorem iterate_next_nextLevel (found level : List String) :
    (next ts)^[level.length] ⟨found, level⟩ =
      ⟨found ++ ts.nextLevel found level, ts.nextLevel found level⟩ := by
  have hlevel : (next ts)^[level.length] ⟨found, level ++ []⟩ = _ :=
    iterate_next_level level found []
  rwa [List.append_nil, foldl_meet, List.nil_append] at hlevel

end Walk

theorem Searched.nextLevel_eq_nil {found level : List String} (h : ts.Searched found level)
    (hall : ts.supertypeNames.length ≤ found.length) : ts.nextLevel found level = [] := by
  have hperm := (h.nodup.subperm h.subset).perm_of_length_le hall
  refine List.eq_nil_iff_forall_not_mem.2 fun x hx => ?_
  obtain ⟨⟨l, -, hdirect⟩, hfound⟩ := mem_nextLevel.1 hx
  exact hfound (hperm.symm.subset (mem_supertypeNames_of_direct hdirect))

/-- The walk takes a step for each name in the queue and for each name that it finds, and then it
has found what the search level by level finds. -/
theorem Searched.exists_iterate_next {rounds : Nat} {found level : List String}
    (h : ts.Searched found level) (hrounds : ts.supertypeNames.length ≤ rounds + found.length) :
    ∃ more, ts.climb rounds found level = found ++ more ∧
      (Walk.next ts)^[level.length + more.length] ⟨found, level⟩ = ⟨found ++ more, []⟩ := by
  induction rounds generalizing found level with
  | zero =>
    have hnil := h.nextLevel_eq_nil (by omega)
    refine ⟨[], (List.append_nil found).symm, ?_⟩
    rw [List.length_nil, Nat.add_zero, Walk.iterate_next_nextLevel, hnil]
  | succ rounds ih =>
    rw [climb_succ]
    split
    · next hnil =>
      refine ⟨[], (List.append_nil found).symm, ?_⟩
      rw [List.length_nil, Nat.add_zero, Walk.iterate_next_nextLevel, hnil]
    · next hne =>
      have hpos := List.length_pos_iff.2 hne
      obtain ⟨more, hclimb, hwalk⟩ := ih h.next (by rw [List.length_append]; omega)
      refine ⟨ts.nextLevel found level ++ more, by rw [hclimb, List.append_assoc], ?_⟩
      rw [Nat.add_comm, Function.iterate_add_apply, Walk.iterate_next_nextLevel,
        List.length_append, hwalk, List.append_assoc]

/-! ### Distances -/

/-- The length of a shortest chain of at least one direct supertype from a name up to another. -/
noncomputable def distance (ts : TypeSystem) (name target : String) : Nat :=
  sInf {n | 0 < n ∧ ts.Above n name target}

theorem distance_le {n : Nat} {name target : String} (hpos : 0 < n)
    (h : ts.Above n name target) : ts.distance name target ≤ n :=
  Nat.sInf_le ⟨hpos, h⟩

theorem above_succ_right {n : Nat} {name target : String} :
    ts.Above (n + 1) name target ↔
      ∃ last, ts.Above n name last ∧ target ∈ ts.directSupertypeNames last := by
  constructor
  · intro h
    induction n generalizing name with
    | zero =>
      obtain ⟨next, hnext, hrest⟩ := above_succ.1 h
      exact ⟨name, .refl name, above_zero.1 hrest ▸ hnext⟩
    | succ n ih =>
      obtain ⟨next, hnext, hrest⟩ := above_succ.1 h
      obtain ⟨last, habove, htarget⟩ := ih hrest
      exact ⟨last, .step hnext habove, htarget⟩
  · rintro ⟨last, habove, htarget⟩
    exact habove.trans (.step htarget (.refl target))

/-- Whether a name is found that many levels up and no fewer. The start itself is on level 0. -/
def OnLevel (ts : TypeSystem) (name : String) (n : Nat) (target : String) : Prop :=
  ts.Above n name target ∧ ∀ k, 0 < k → k < n → ¬ts.Above k name target

theorem OnLevel.distance_eq {n : Nat} {name target : String} (h : ts.OnLevel name (n + 1) target) :
    ts.distance name target = n + 1 := by
  refine Nat.le_antisymm (distance_le n.succ_pos h.1) ?_
  have hchain : {k | 0 < k ∧ ts.Above k name target}.Nonempty := ⟨n + 1, n.succ_pos, h.1⟩
  obtain ⟨hpos, habove⟩ := Nat.sInf_mem hchain
  exact Nat.le_of_not_lt fun hlt => h.2 _ hpos hlt habove

/-- What a search keeps that has come up `n` levels from a name. -/
structure Leveled (ts : TypeSystem) (name : String) (n : Nat) (found level : List String) :
    Prop where
  mem_found : ∀ x, x ∈ found ↔ ∃ k, 0 < k ∧ k ≤ n ∧ ts.Above k name x
  mem_level : ∀ x, x ∈ level ↔ ts.OnLevel name n x
  ordered : found.Pairwise fun x y => ts.distance name x ≤ ts.distance name y

namespace Leveled

variable {name : String} {n : Nat} {found level : List String}

theorem start (name : String) : ts.Leveled name 0 [] [name] where
  mem_found x := by
    simp only [List.not_mem_nil, false_iff, not_exists, not_and]
    intro k hpos hle
    omega
  mem_level x := by
    rw [List.mem_singleton, OnLevel, above_zero]
    exact ⟨fun h => ⟨h.symm, fun k _ hlt => absurd hlt (Nat.not_lt_zero k)⟩, fun h => h.1.symm⟩
  ordered := .nil

/-- One step above the names on a level are those on the next one, except for what is found on a
level before. -/
theorem mem_nextLevel_iff (h : ts.Leveled name n found level) (x : String) :
    x ∈ ts.nextLevel found level ↔ ts.OnLevel name (n + 1) x := by
  have hfound : x ∉ found ↔ ∀ k, 0 < k → k < n + 1 → ¬ts.Above k name x := by
    rw [h.mem_found]
    simp only [not_exists, not_and, Nat.lt_succ_iff]
  rw [mem_nextLevel, OnLevel, ← hfound, and_congr_left_iff]
  intro hx
  rw [above_succ_right]
  constructor
  · rintro ⟨l, hl, hdirect⟩
    exact ⟨l, ((h.mem_level l).1 hl).1, hdirect⟩
  · rintro ⟨l, habove, hdirect⟩
    refine ⟨l, (h.mem_level l).2 ⟨habove, ?_⟩, hdirect⟩
    -- a shorter way to `l` would be a shorter way to `x`
    intro k hpos hlt hshort
    exact hx ((h.mem_found x).2 ⟨k + 1, k.succ_pos, hlt, above_succ_right.2 ⟨l, hshort, hdirect⟩⟩)

theorem next (h : ts.Leveled name n found level) :
    ts.Leveled name (n + 1) (found ++ ts.nextLevel found level) (ts.nextLevel found level) where
  mem_found x := by
    rw [List.mem_append, h.mem_nextLevel_iff, h.mem_found]
    constructor
    · rintro (⟨k, hpos, hle, habove⟩ | ⟨habove, -⟩)
      · exact ⟨k, hpos, Nat.le_succ_of_le hle, habove⟩
      · exact ⟨n + 1, n.succ_pos, Nat.le_refl _, habove⟩
    · rintro ⟨k, hpos, hle, habove⟩
      by_cases hshort : ∃ j, 0 < j ∧ j ≤ n ∧ ts.Above j name x
      · exact .inl hshort
      · have hk : k = n + 1 := by
          by_contra hk
          exact hshort ⟨k, hpos, by omega, habove⟩
        subst hk
        exact .inr ⟨habove, fun j hj hlt hj' => hshort ⟨j, hj, Nat.le_of_lt_succ hlt, hj'⟩⟩
  mem_level := h.mem_nextLevel_iff
  ordered := by
    have hdistance : ∀ x ∈ ts.nextLevel found level, ts.distance name x = n + 1 := fun x hx =>
      ((h.mem_nextLevel_iff x).1 hx).distance_eq
    refine List.pairwise_append.2 ⟨h.ordered, ?_, ?_⟩
    · refine List.pairwise_of_forall_mem_list fun x hx y hy => ?_
      rw [hdistance x hx, hdistance y hy]
    · intro x hx y hy
      obtain ⟨k, hpos, hle, habove⟩ := (h.mem_found x).1 hx
      rw [hdistance y hy]
      exact Nat.le_trans (distance_le hpos habove) (Nat.le_succ_of_le hle)

end Leveled

theorem climb_induction {P : List String → List String → Prop}
    (hnext : ∀ found level, P found level →
      P (found ++ ts.nextLevel found level) (ts.nextLevel found level))
    (rounds : Nat) {found level : List String} (h : P found level) :
    ∃ last, P (ts.climb rounds found level) last := by
  induction rounds generalizing found level with
  | zero => exact ⟨level, h⟩
  | succ rounds ih =>
    rw [climb_succ]
    split
    · exact ⟨level, h⟩
    · exact ih (hnext found level h)

/-- A walk up from a type ends, after a step for each name that it finds and one for the start.
It finds what is above the type, each name once, and the nearer names first. -/
theorem ancestors_nearest_first (ts : TypeSystem) (name : String) :
    (Walk.next ts)^[(ts.ancestors name).length + 1] (.start name) = ⟨ts.ancestors name, []⟩ ∧
      (ts.ancestors name).Nodup ∧
      (∀ target, target ∈ ts.ancestors name ↔ ∃ n, ts.Above (n + 1) name target) ∧
      (ts.ancestors name).Pairwise fun x y => ts.distance name x ≤ ts.distance name y := by
  have hstart : ts.Searched [] [name] := searched_nil [name]
  obtain ⟨more, hmore, hwalk⟩ := hstart.exists_iterate_next (Nat.le_refl ts.supertypeNames.length)
  have hancestors : ts.ancestors name = more := hmore
  obtain ⟨_, hsearched⟩ :=
    climb_induction (P := ts.Searched) (fun _ _ h => h.next) ts.supertypeNames.length hstart
  obtain ⟨_, n, hleveled⟩ :=
    climb_induction (P := fun found level => ∃ n, ts.Leveled name n found level)
      (fun _ _ ⟨n, h⟩ => ⟨n + 1, h.next⟩) ts.supertypeNames.length ⟨0, .start name⟩
  refine ⟨?_, hsearched.nodup, fun target => mem_ancestors_iff, hleveled.ordered⟩
  rw [hancestors, Nat.add_comm]
  exact hwalk

/-- A type below itself is found at the end of its cycle, after what is nearer on another way. -/
example : (((({} : ClassTable).implement "A" (.declared "B")).implement "A" (.declared "C"))
    |>.implement "B" (.declared "A")).toTypeSystem.ancestors "A" = ["B", "C", "A"] := by
  decide +kernel

end TypedMustache.TypeSystem
