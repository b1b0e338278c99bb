import TypedMustache.Proofs.Subtyping

/-! How deep a question of subtyping is taken apart. An answer stands, however much deeper goals
may be nested, and goals are settled together if each one is. So what is settled within the limit
is answered, and a question whose only premise is another is answered like it. -/

namespace TypedMustache.TypeSystem

variable {ts : TypeSystem}

/-! ### Goals together -/

section

variable {settle? other? : Goal → Option Bool} {goal : Goal} {goals rest : List Goal} {holds : Bool}

theorem allM_cons_of_true (h : settle? goal = some true) :
    (goal :: rest).allM settle? = rest.allM settle? := by
  rw [List.allM_cons, h]
  rfl

theorem allM_cons_of_false (h : settle? goal = some false) :
    (goal :: rest).allM settle? = some false := by
  rw [List.allM_cons, h]
  rfl

theorem allM_cons_of_none (h : settle? goal = none) : (goal :: rest).allM settle? = none := by
  rw [List.allM_cons, h]
  rfl

theorem allM_singleton (goal : Goal) : [goal].allM settle? = settle? goal := by
  rcases h : settle? goal with _ | _ | _
  · exact allM_cons_of_none h
  · exact allM_cons_of_false h
  · exact allM_cons_of_true h

theorem allM_mono (hanswers : ∀ goal holds, settle? goal = some holds → other? goal = some holds)
    (h : goals.allM settle? = some holds) : goals.allM other? = some holds := by
  induction goals with
  | nil => exact h
  | cons goal rest ih =>
    rcases hgoal : settle? goal with _ | _ | _
    · rw [allM_cons_of_none hgoal] at h
      cases h
    · rw [allM_cons_of_false hgoal] at h
      rw [allM_cons_of_false (hanswers goal false hgoal), h]
    · rw [allM_cons_of_true hgoal] at h
      rw [allM_cons_of_true (hanswers goal true hgoal)]
      exact ih h

theorem exists_allM_of_forall (h : ∀ goal ∈ goals, ∃ holds, settle? goal = some holds) :
    ∃ holds, goals.allM settle? = some holds := by
  induction goals with
  | nil => exact ⟨true, rfl⟩
  | cons goal rest ih =>
    obtain ⟨⟨met, hgoal⟩, hrest⟩ := List.forall_mem_cons.1 h
    cases met with
    | false => exact ⟨false, allM_cons_of_false hgoal⟩
    | true =>
      rw [allM_cons_of_true hgoal]
      exact ih hrest

theorem allM_eq_true_iff :
    goals.allM settle? = some true ↔ ∀ goal ∈ goals, settle? goal = some true := by
  induction goals with
  | nil => simp
  | cons goal rest ih =>
    rw [List.forall_mem_cons, ← ih]
    rcases hgoal : settle? goal with _ | _ | _
    · rw [allM_cons_of_none hgoal]
      simp
    · rw [allM_cons_of_false hgoal]
      simp
    · rw [allM_cons_of_true hgoal]
      simp

end

/-! ### Depths -/

/-- An answer does not change if goals may be nested deeper. -/
theorem settle?_mono {m n : Nat} {goal : Goal} {holds : Bool}
    (h : ts.settle? m goal = some holds) (hmn : m ≤ n) : ts.settle? n goal = some holds := by
  induction m generalizing n goal holds with
  | zero => cases h
  | succ m ih =>
    obtain ⟨n, rfl⟩ : ∃ k, n = k + 1 :=
      Nat.exists_eq_add_of_le' (Nat.le_trans (Nat.succ_pos m) hmn)
    rw [settle?] at h ⊢
    cases hpremises : ts.premises goal with
    | none => rwa [hpremises] at h
    | some premises =>
      rw [hpremises] at h
      exact allM_mono (fun _ _ hgoal => ih hgoal (Nat.le_of_succ_le_succ hmn)) h

theorem allM_settle?_mono {m n : Nat} {goals : List Goal} {holds : Bool}
    (h : goals.allM (ts.settle? m) = some holds) (hmn : m ≤ n) :
    goals.allM (ts.settle? n) = some holds :=
  allM_mono (fun _ _ hgoal => settle?_mono hgoal hmn) h

theorem settle?_of_premises {n : Nat} {goal : Goal} {premises : List Goal} {holds : Bool}
    (hpremises : ts.premises goal = some premises)
    (h : premises.allM (ts.settle? n) = some holds) : ts.settle? (n + 1) goal = some holds := by
  rw [settle?, hpremises]
  exact h

/-- What a single premise leaves open stays open. -/
theorem settle?_one_premise {goal premise : Goal} (h : ts.premises goal = some [premise])
    (n : Nat) : ts.settle? (n + 1) goal = ts.settle? n premise := by
  rw [settle?, h]
  exact allM_singleton premise

/-- A goal that is decided on the spot takes no others. -/
theorem settle?_of_settled {n : Nat} {goal : Goal} {holds : Bool}
    (h : ts.premises goal = settled holds) (hn : 1 ≤ n) : ts.settle? n goal = some holds := by
  obtain ⟨n, rfl⟩ := Nat.exists_eq_add_of_le' hn
  rw [settle?, h]
  cases holds <;> rfl

theorem exists_settle?_of_premises {n : Nat} {goal : Goal}
    (h : ∀ premises, ts.premises goal = some premises →
      ∀ premise ∈ premises, ∃ holds, ts.settle? n premise = some holds) :
    ∃ holds, ts.settle? (n + 1) goal = some holds := by
  cases hgoal : ts.premises goal with
  | none => exact ⟨false, settle?_of_settled hgoal (Nat.succ_pos n)⟩
  | some premises =>
    obtain ⟨holds, hholds⟩ := exists_allM_of_forall (h premises hgoal)
    exact ⟨holds, settle?_of_premises hgoal hholds⟩

/-! ### Goals that are met -/

/-- Whether the answer is yes, however deep goals have to be nested for it. -/
def Met (ts : TypeSystem) (goal : Goal) : Prop := ∃ n, ts.settle? n goal = some true

theorem met_of_isSubtype {a b : JavaType} (h : ts.isSubtype a b = true) :
    ts.Met (.subtype a b) := ⟨depthLimit a b, eq_of_beq h⟩

namespace Met

variable {goal : Goal}

theorem exists_premises (h : ts.Met goal) :
    ∃ premises, ts.premises goal = some premises ∧ ∀ premise ∈ premises, ts.Met premise := by
  obtain ⟨n, h⟩ := h
  cases n with
  | zero => cases h
  | succ n =>
    rw [settle?] at h
    cases hpremises : ts.premises goal with
    | none => rw [hpremises] at h; cases h
    | some premises =>
      rw [hpremises] at h
      exact ⟨premises, rfl, fun premise hmem => ⟨n, allM_eq_true_iff.1 h premise hmem⟩⟩

theorem ne_none (h : ts.Met goal) : ts.premises goal ≠ none := by
  obtain ⟨premises, hpremises, -⟩ := h.exists_premises
  simp [hpremises]

theorem of_settled {holds : Bool} (h : ts.Met goal) (hpremises : ts.premises goal = settled holds) :
    holds = true := by
  cases holds with
  | true => rfl
  | false => exact absurd hpremises h.ne_none

theorem of_premises {premise : Goal} (h : ts.Met goal)
    (hpremises : ts.premises goal = some [premise]) : ts.Met premise := by
  obtain ⟨premises, hsome, hmet⟩ := h.exists_premises
  rw [hpremises] at hsome
  obtain rfl := Option.some.inj hsome
  exact hmet premise List.mem_cons_self

end Met

/-! ### Answers -/

theorem isSubtype_eq_of_settle? {n : Nat} {a b : JavaType} {holds : Bool}
    (h : ts.settle? n (.subtype a b) = some holds) (hn : n ≤ depthLimit a b) :
    ts.isSubtype a b = holds := by
  rw [isSubtype, settle?_mono h hn]
  cases holds <;> rfl

end TypedMustache.TypeSystem
