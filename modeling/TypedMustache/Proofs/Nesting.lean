import TypedMustache.Proofs.Settling
import TypedMustache.Proofs.Views

/-! How deep questions of subtyping are nested. A question is taken apart along the type on its
right, and the supertypes that come in on the left do not matter. Only a lower-bounded wildcard
on the right turns a question around, and then what was on the left is taken apart. If no type is
declared below one with such a wildcard in it, a view has no more levels of them than the type
that is viewed, and every turn takes one away. So there are only so many turns, and between them
the type on the right gets smaller. The same goes for a question with no such wildcard on its
right, which never turns. With one among the supertypes of a declaration a question can come back
to itself, although no type is above itself. -/

namespace TypedMustache

open JavaType

namespace JavaType

mutual

/-- How many lower-bounded wildcards of a type stand inside one another. -/
def lowerDepth : JavaType → Nat
  | .generic _ args => lowerDepths args
  | .array element _ => lowerDepth element
  | .bounded .upper bound => lowerDepth bound
  | .bounded .lower bound => lowerDepth bound + 1
  | _ => 0

def lowerDepths : List JavaType → Nat
  | [] => 0
  | a :: as => max (lowerDepth a) (lowerDepths as)

end

theorem lowerDepth_le_lowerDepths {a : JavaType} {as : List JavaType} (h : a ∈ as) :
    a.lowerDepth ≤ lowerDepths as := by
  induction as with
  | nil => cases h
  | cons b bs ih =>
    rcases List.mem_cons.1 h with rfl | h
    · exact Nat.le_max_left _ _
    · exact Nat.le_trans (ih h) (Nat.le_max_right _ _)

theorem lowerDepths_args_le (ty : JavaType) : lowerDepths ty.args ≤ ty.lowerDepth := by
  cases ty with
  | generic base args => exact Nat.le_refl _
  | _ => exact Nat.zero_le _

theorem lowerDepth_component? {ty component : JavaType} (h : ty.component? = some component) :
    component.lowerDepth = ty.lowerDepth := by
  cases ty with
  | array element dimensions => rcases dimensions with _ | _ | n <;> cases h <;> rfl
  | _ => cases h

theorem size_le_sizes {a : JavaType} {as : List JavaType} (h : a ∈ as) : a.size ≤ sizes as := by
  induction as with
  | nil => cases h
  | cons b bs ih =>
    rcases List.mem_cons.1 h with rfl | h
    · exact Nat.le_add_right _ _
    · exact Nat.le_trans (ih h) (Nat.le_add_left _ _)

end JavaType

namespace Substitution

variable {s : Substitution} {bound : Nat}

mutual

/-- What is put in place of variables adds its own levels and no more. -/
theorem lowerDepth_apply_le (hs : ∀ name arg, s.get? name = some arg → arg.lowerDepth ≤ bound) :
    ∀ ty : JavaType, (s.apply ty).lowerDepth ≤ ty.lowerDepth + bound
  | .declared name => by
    rw [apply]
    cases hget : s.get? name with
    | none => exact Nat.zero_le _
    | some arg => exact Nat.le_trans (hs name arg hget) (Nat.le_add_left _ _)
  | .generic _ args => lowerDepths_applyAll_le hs args
  | .array element dimensions => by
    have harray : (arrayOver (s.apply element) dimensions).lowerDepth =
        (s.apply element).lowerDepth := by
      cases s.apply element <;> rfl
    rw [apply, harray]
    exact lowerDepth_apply_le hs element
  | .bounded .upper bound => lowerDepth_apply_le hs bound
  | .bounded .lower bound => by
    have hbound := lowerDepth_apply_le hs bound
    simp only [apply, lowerDepth]
    omega
  | .primitive _ => Nat.zero_le _
  | .wildcard _ => Nat.zero_le _
  | .unknown => Nat.zero_le _

theorem lowerDepths_applyAll_le
    (hs : ∀ name arg, s.get? name = some arg → arg.lowerDepth ≤ bound) :
    ∀ as : List JavaType, lowerDepths (s.applyAll as) ≤ lowerDepths as + bound
  | [] => Nat.zero_le _
  | a :: as => by
    have ha := lowerDepth_apply_le hs a
    have has := lowerDepths_applyAll_le hs as
    simp only [applyAll, lowerDepths]
    omega

end

end Substitution

namespace TypeSystem

variable {ts : TypeSystem}

/-- Whether no type is declared below one with a lower-bounded wildcard in it. -/
def InheritsNoLower (ts : TypeSystem) : Prop :=
  ∀ name, ∀ sup ∈ ts.directSupertypes name, sup.lowerDepth = 0

/-- Where no such type is inherited, a view has no more levels of them than the type that is
viewed. -/
theorem InheritsNoLower.lowerDepth_supertypeWithin (hts : ts.InheritsNoLower) {target : String}
    (steps : Nat) {ty view : JavaType} (h : ts.supertypeWithin target steps ty = some view) :
    view.lowerDepth ≤ ty.lowerDepth := by
  induction steps generalizing ty view with
  | zero => cases h
  | succ steps ih =>
    obtain ⟨name, -, ⟨-, rfl⟩ | ⟨sup, hsup, found, hfound, rfl⟩⟩ := supertypeWithin_cases h
    · exact Nat.le_refl _
    · split
      · rw [erasure_of_baseName? found (baseName?_supertypeWithin steps hfound)]
        exact Nat.zero_le _
      · obtain ⟨upper, hupper, rfl⟩ := List.mem_map.1 hsup
        refine Nat.le_trans (ih hfound) (Nat.le_trans ?_ (lowerDepths_args_le ty))
        have hargs : ∀ p arg, (Substitution.ofParameters (ts.parameterNames name) ty.args).get? p =
            some arg → arg.lowerDepth ≤ lowerDepths ty.args := by
          intro p arg harg
          have hmem := Substitution.mem_of_get?_ofParameters harg
          exact lowerDepth_le_lowerDepths hmem.2
        have happly := Substitution.lowerDepth_apply_le hargs upper
        rwa [hts name upper hupper, Nat.zero_add] at happly

/-! ### Premises -/

/-- What a goal can come down to. What is taken from the left side of a question with arguments
belongs to a view and may be larger than anything in the question. -/
inductive Premise (ts : TypeSystem) : Goal → Goal → Prop where
  | upperBound (bound b : JavaType) :
    Premise ts (.subtype (.bounded .upper bound) b) (.subtype bound b)
  | component {a b x y : JavaType} (hx : a.component? = some x) (hy : b.component? = some y) :
    Premise ts (.subtype a b) (.subtype x y)
  | argument {a base view arg bound : JavaType} {args : List JavaType} {target : String}
    (hview : ts.asSupertype a target = some view) (harg : arg ∈ view.args) (hbound : bound ∈ args) :
    Premise ts (.subtype a (.generic base args)) (.within arg bound)
  | withinUpper (arg bound : JavaType) :
    Premise ts (.within arg (.bounded .upper bound)) (.subtype arg bound)
  | withinLower (arg bound : JavaType) :
    Premise ts (.within arg (.bounded .lower bound)) (.subtype bound arg)
  | lowerWithinLower (lower bound : JavaType) :
    Premise ts (.within (.bounded .lower lower) (.bounded .lower bound)) (.subtype bound lower)

theorem eq_nil_of_settled {holds : Bool} {premises : List Goal}
    (h : settled holds = some premises) : premises = [] := by
  cases holds <;> cases h
  rfl

theorem premise_of_mem_declaredPremises {a b : JavaType} {premise : Goal} {premises : List Goal}
    (hpremises : ts.declaredPremises a b = some premises) (hmem : premise ∈ premises) :
    ts.Premise (.subtype a b) premise := by
  cases b with
  | declared target =>
    rw [declaredPremises] at hpremises
    split at hpremises <;> simp [eq_nil_of_settled hpremises] at hmem
  | generic base args =>
    rw [declaredPremises] at hpremises
    split at hpremises
    · cases hpremises
    · next own hview =>
      obtain ⟨target, -, hview⟩ := Option.bind_eq_some_iff.1 hview
      split at hpremises
      · cases hpremises
        rw [← List.map_uncurry_zip_eq_zipWith] at hmem
        obtain ⟨⟨arg, bound⟩, hzip, rfl⟩ := List.mem_map.1 hmem
        obtain ⟨harg, hbound⟩ := List.of_mem_zip hzip
        exact .argument hview harg hbound
      · cases hpremises
    · simp [eq_nil_of_settled hpremises] at hmem
  | _ => cases hpremises

theorem premise_of_mem_arrayPremises {a b : JavaType} {premise : Goal} {premises : List Goal}
    (hpremises : arrayPremises a b = some premises) (hmem : premise ∈ premises) :
    ts.Premise (.subtype a b) premise := by
  cases b with
  | declared target => simp [eq_nil_of_settled hpremises] at hmem
  | array element dimensions =>
    rw [arrayPremises] at hpremises
    split at hpremises
    · next x y hx hy =>
      split at hpremises
      · simp [eq_nil_of_settled hpremises] at hmem
      · cases hpremises
        obtain rfl := List.mem_singleton.1 hmem
        exact .component hx hy
    · cases hpremises
  | _ => cases hpremises

theorem premise_of_mem_subtypePremises {a b : JavaType} {premise : Goal} {premises : List Goal}
    (hpremises : ts.subtypePremises a b = some premises) (hmem : premise ∈ premises) :
    ts.Premise (.subtype a b) premise := by
  unfold subtypePremises at hpremises
  split at hpremises
  · cases hpremises
    cases hmem
  split at hpremises
  · cases hpremises
  cases a with
  | bounded side bound =>
    cases side with
    | lower => simp [eq_nil_of_settled hpremises] at hmem
    | upper =>
      cases hpremises
      obtain rfl := List.mem_singleton.1 hmem
      exact .upperBound bound b
  | wildcard side => simp [eq_nil_of_settled hpremises] at hmem
  | primitive small =>
    cases b with
    | primitive large => simp [eq_nil_of_settled hpremises] at hmem
    | _ => cases hpremises
  | array element dimensions => exact premise_of_mem_arrayPremises hpremises hmem
  | declared name => exact premise_of_mem_declaredPremises hpremises hmem
  | generic base args => exact premise_of_mem_declaredPremises hpremises hmem
  | unknown => cases hpremises

theorem premise_of_mem_withinPremises {arg bound : JavaType} {premise : Goal}
    {premises : List Goal} (hpremises : withinPremises arg bound = some premises)
    (hmem : premise ∈ premises) : ts.Premise (.within arg bound) premise := by
  cases bound with
  | wildcard side =>
    cases hpremises
    cases hmem
  | bounded side bound =>
    cases side with
    | upper =>
      cases hpremises
      obtain rfl := List.mem_singleton.1 hmem
      exact .withinUpper arg bound
    | lower =>
      cases arg with
      | bounded side lower =>
        cases side with
        | upper => cases hpremises
        | lower =>
          cases hpremises
          obtain rfl := List.mem_singleton.1 hmem
          exact .lowerWithinLower lower bound
      | wildcard side => cases hpremises
      | _ =>
        cases hpremises
        obtain rfl := List.mem_singleton.1 hmem
        exact .withinLower _ bound
  | _ => simp [eq_nil_of_settled hpremises] at hmem

theorem premise_of_mem : ∀ {goal premise : Goal} {premises : List Goal},
    ts.premises goal = some premises → premise ∈ premises → ts.Premise goal premise
  | .subtype _ _, _, _, hpremises, hmem => premise_of_mem_subtypePremises hpremises hmem
  | .within _ _, _, _, hpremises, hmem => premise_of_mem_withinPremises hpremises hmem

/-! ### Turns -/

/-- How often a goal can be turned around, from the levels of lower-bounded wildcards on both of
its sides: never without one on its right, and every turn takes one away. -/
def turnsBetween (left right : Nat) : Nat := if right = 0 then 0 else left + right

theorem turnsBetween_le {left left' right right' : Nat} (hleft : left' ≤ left ∨ right' = 0)
    (hright : right' ≤ right) : turnsBetween left' right' ≤ turnsBetween left right := by
  unfold turnsBetween
  split <;> split <;> omega

theorem turnsBetween_swap_lt (left right : Nat) :
    turnsBetween right left < turnsBetween left (right + 1) := by
  rw [turnsBetween, turnsBetween, if_neg (Nat.succ_ne_zero right)]
  split <;> omega

namespace Goal

def left : Goal → JavaType
  | .subtype a _ => a
  | .within arg _ => arg

def right : Goal → JavaType
  | .subtype _ b => b
  | .within _ bound => bound

def turns (goal : Goal) : Nat := turnsBetween goal.left.lowerDepth goal.right.lowerDepth

/-- Whether a goal has no turns but those that can be read off it. -/
def Tame (ts : TypeSystem) (goal : Goal) : Prop := ts.InheritsNoLower ∨ goal.right.lowerDepth = 0

/-- Whether a goal has fewer turns, or what is on its right is smaller, or that is the same and
what is on its left is smaller. -/
def Simpler (premise goal : Goal) : Prop :=
  premise.turns < goal.turns ∨ premise.turns ≤ goal.turns ∧
    (premise.right.size < goal.right.size ∨
      premise.right = goal.right ∧ premise.left.size < goal.left.size)

end Goal

theorem Premise.simpler {goal premise : Goal} (h : ts.Premise goal premise)
    (htame : goal.Tame ts) : premise.Simpler goal ∧ premise.Tame ts := by
  cases h with
  | upperBound bound b =>
    exact ⟨.inr ⟨Nat.le_refl _, .inr ⟨rfl, Nat.lt_succ_self bound.size⟩⟩, htame⟩
  | @component a b x y hx hy =>
    have hleft : x.lowerDepth = a.lowerDepth := lowerDepth_component? hx
    have hright : y.lowerDepth = b.lowerDepth := lowerDepth_component? hy
    have hturns : turnsBetween x.lowerDepth y.lowerDepth ≤
        turnsBetween a.lowerDepth b.lowerDepth :=
      turnsBetween_le (.inl (Nat.le_of_eq hleft)) (Nat.le_of_eq hright)
    exact ⟨.inr ⟨hturns, .inl (size_component?_lt hy)⟩, htame.imp_right hright.trans⟩
  | @argument a base view arg bound args target hview harg hbound =>
    have hright : bound.lowerDepth ≤ lowerDepths args := lowerDepth_le_lowerDepths hbound
    have hnone (hzero : lowerDepths args = 0) : bound.lowerDepth = 0 :=
      Nat.le_zero.1 (hzero ▸ hright)
    have hleft : arg.lowerDepth ≤ a.lowerDepth ∨ bound.lowerDepth = 0 := by
      refine htame.imp (fun hts => ?_) hnone
      exact Nat.le_trans (lowerDepth_le_lowerDepths harg)
        (Nat.le_trans (lowerDepths_args_le view) (hts.lowerDepth_supertypeWithin _ hview))
    have hsize : bound.size < (generic base args).size := by
      have hsizes := size_le_sizes hbound
      simp only [size]
      omega
    exact ⟨.inr ⟨turnsBetween_le hleft hright, .inl hsize⟩, htame.imp_right hnone⟩
  | withinUpper arg bound =>
    exact ⟨.inr ⟨Nat.le_refl _, .inl (Nat.lt_succ_self bound.size)⟩, htame⟩
  | withinLower arg bound =>
    have hts : ts.InheritsNoLower := htame.resolve_right (Nat.succ_ne_zero _)
    exact ⟨.inl (turnsBetween_swap_lt arg.lowerDepth bound.lowerDepth), .inl hts⟩
  | lowerWithinLower lower bound =>
    have hts : ts.InheritsNoLower := htame.resolve_right (Nat.succ_ne_zero _)
    have hturns : turnsBetween bound.lowerDepth lower.lowerDepth <
        turnsBetween (lower.lowerDepth + 1) (bound.lowerDepth + 1) :=
      Nat.lt_of_lt_of_le (turnsBetween_swap_lt lower.lowerDepth bound.lowerDepth)
        (turnsBetween_le (.inl (Nat.le_succ _)) (Nat.le_refl _))
    exact ⟨.inl hturns, .inl hts⟩

/-! ### Depth -/

/-- Whether the first of two goals comes down to the second through `n` premises, each of the one
before. -/
inductive Nested (ts : TypeSystem) : Nat → Goal → Goal → Prop where
  | refl (goal : Goal) : Nested ts 0 goal goal
  | step {n : Nat} {goal premise last : Goal} {premises : List Goal}
    (hpremises : ts.premises goal = some premises) (hmem : premise ∈ premises)
    (h : Nested ts n premise last) : Nested ts (n + 1) goal last

/-- Whether no goals are nested deeper below a goal. -/
def EndsWithin (ts : TypeSystem) (depth : Nat) (goal : Goal) : Prop :=
  ∀ n last, ts.Nested n goal last → n ≤ depth

theorem EndsWithin.mono {m n : Nat} {goal : Goal} (h : ts.EndsWithin m goal) (hmn : m ≤ n) :
    ts.EndsWithin n goal := fun k last hlast => Nat.le_trans (h k last hlast) hmn

theorem exists_endsWithin_all {goals : List Goal}
    (h : ∀ goal ∈ goals, ∃ depth, ts.EndsWithin depth goal) :
    ∃ depth, ∀ goal ∈ goals, ts.EndsWithin depth goal := by
  induction goals with
  | nil => exact ⟨0, fun goal hgoal => by cases hgoal⟩
  | cons goal rest ih =>
    obtain ⟨m, hm⟩ := h goal List.mem_cons_self
    obtain ⟨n, hn⟩ := ih fun g hg => h g (List.mem_cons_of_mem _ hg)
    refine ⟨max m n, fun g hg => ?_⟩
    rcases List.mem_cons.1 hg with rfl | hg
    · exact hm.mono (Nat.le_max_left m n)
    · exact (hn g hg).mono (Nat.le_max_right m n)

theorem exists_endsWithin_of_premises {goal : Goal}
    (h : ∀ premises, ts.premises goal = some premises →
      ∀ premise ∈ premises, ∃ depth, ts.EndsWithin depth premise) :
    ∃ depth, ts.EndsWithin depth goal := by
  cases hgoal : ts.premises goal with
  | none =>
    refine ⟨0, fun n last hlast => ?_⟩
    cases hlast with
    | refl => exact Nat.le_refl 0
    | step hpremises => simp [hgoal] at hpremises
  | some premises =>
    obtain ⟨depth, hdepth⟩ := exists_endsWithin_all (h premises hgoal)
    refine ⟨depth + 1, fun n last hlast => ?_⟩
    cases hlast with
    | refl => exact Nat.zero_le _
    | step hpremises hmem hlast =>
      obtain rfl := Option.some.inj (hgoal.symm.trans hpremises)
      exact Nat.succ_le_succ (hdepth _ hmem _ _ hlast)

/-- A tame goal ends: below it goals only get simpler. -/
theorem Goal.Tame.exists_endsWithin (goal : Goal) (htame : goal.Tame ts) :
    ∃ depth, ts.EndsWithin depth goal := by
  refine exists_endsWithin_of_premises fun premises hpremises premise hmem => ?_
  obtain ⟨hsimpler, hpremise⟩ := (premise_of_mem hpremises hmem).simpler htame
  exact hpremise.exists_endsWithin premise
  termination_by (goal.turns, goal.right.size, goal.left.size)
  decreasing_by
    -- turns come first: a turn moves what was on the left, of any size, to the right
    rcases hsimpler with hturns | ⟨hturns, hsize⟩
    · exact .left _ _ hturns
    · rcases Nat.lt_or_eq_of_le hturns with hturns | hturns
      · exact .left _ _ hturns
      · rw [hturns]
        refine .right _ ?_
        rcases hsize with hright | ⟨hright, hleft⟩
        · exact .left _ _ hright
        · rw [hright]
          exact .right _ hleft

/-! ### Answers -/

theorem EndsWithin.exists_settle? {depth : Nat} {goal : Goal} (h : ts.EndsWithin depth goal) :
    ∃ holds, ts.settle? (depth + 1) goal = some holds := by
  induction depth generalizing goal with
  | zero =>
    refine exists_settle?_of_premises fun premises hpremises premise hmem => ?_
    exact absurd (h 1 premise (.step hpremises hmem (.refl premise))) (by decide)
  | succ depth ih =>
    refine exists_settle?_of_premises fun premises hpremises premise hmem => ih ?_
    intro n last hlast
    exact Nat.le_of_succ_le_succ (h (n + 1) last (.step hpremises hmem hlast))

/-- A question of subtyping ends, and is answered, if no type is declared below one with a
lower-bounded wildcard in it or there is none in the type on the right. -/
theorem isSubtype_ends {a b : JavaType} (h : ts.InheritsNoLower ∨ b.lowerDepth = 0) :
    (∃ depth, ts.EndsWithin depth (.subtype a b)) ∧
      ∃ n holds, ts.settle? n (.subtype a b) = some holds := by
  have htame : (Goal.subtype a b).Tame ts := h
  obtain ⟨depth, hdepth⟩ := htame.exists_endsWithin
  exact ⟨⟨depth, hdepth⟩, depth + 1, hdepth.exists_settle?⟩

/-- Whether a list of character sequences takes in strings can be told from lists that are
declared without a lower-bounded wildcard. -/
theorem isSubtype_ends_lists :
    (ClassTable.standard "Renderable").toTypeSystem.InheritsNoLower ∧
      (applied "java.util.List" [bounded .lower (declared "java.lang.String")]).lowerDepth = 1 ∧
      (∃ depth, (ClassTable.standard "Renderable").toTypeSystem.EndsWithin depth
        (.subtype (applied "java.util.ArrayList" [declared "java.lang.CharSequence"])
          (applied "java.util.List" [bounded .lower (declared "java.lang.String")]))) ∧
      ∃ n holds, (ClassTable.standard "Renderable").toTypeSystem.settle? n
        (.subtype (applied "java.util.ArrayList" [declared "java.lang.CharSequence"])
          (applied "java.util.List" [bounded .lower (declared "java.lang.String")])) =
        some holds := by
  have hts : (ClassTable.standard "Renderable").toTypeSystem.InheritsNoLower :=
    ClassTable.forall_directSupertypes (P := fun _ sup => sup.lowerDepth = 0) (by decide +kernel)
  exact ⟨hts, rfl, isSubtype_ends (.inl hts)⟩

/-! ### Goals that come back -/

theorem Nested.trans {m n : Nat} {goal middle last : Goal} (h : ts.Nested m goal middle)
    (h' : ts.Nested n middle last) : ts.Nested (m + n) goal last := by
  induction h with
  | refl goal => rwa [Nat.zero_add]
  | step hpremises hmem _ ih =>
    rw [Nat.succ_add]
    exact .step hpremises hmem (ih h')

/-- Below a goal that comes back, goals are nested without end. -/
theorem Nested.not_endsWithin {n : Nat} {goal : Goal} (h : ts.Nested (n + 1) goal goal)
    (depth : Nat) : ¬ts.EndsWithin depth goal := by
  intro hdepth
  have hrounds : ∀ rounds, ts.Nested (rounds * (n + 1)) goal goal := by
    intro rounds
    induction rounds with
    | zero =>
      rw [Nat.zero_mul]
      exact .refl goal
    | succ rounds ih =>
      rw [Nat.succ_mul]
      exact ih.trans h
  have hlong := hdepth _ goal (hrounds (depth + 1))
  rw [Nat.succ_mul] at hlong
  have hmul : depth ≤ depth * (n + 1) := Nat.le_mul_of_pos_right depth (Nat.succ_pos n)
  omega

end TypeSystem

namespace Echo

/-- An interface for what takes in a kind of things, and a class that takes in whatever takes in
what takes in the class. -/
def types : TypeSystem :=
  (((({} : ClassTable).addClass objectName).addInterface "Sink" ["T"]).addClass "Echo").implement
    "Echo" (applied "Sink" [applied "Sink" [bounded .lower (declared "Echo")]]) |>.toTypeSystem

/-- Whether the class takes in what takes in itself. -/
def question : TypeSystem.Goal :=
  .subtype (declared "Echo") (applied "Sink" [bounded .lower (declared "Echo")])

/-- What the question is about, which is turned around to the question. -/
def argument : TypeSystem.Goal :=
  .within (applied "Sink" [bounded .lower (declared "Echo")]) (bounded .lower (declared "Echo"))

theorem premises_question : types.premises question = some [argument] := by decide +kernel

theorem premises_argument : types.premises argument = some [question] := rfl

theorem nested_question : types.Nested 2 question question :=
  .step premises_question List.mem_cons_self
    (.step premises_argument List.mem_cons_self (.refl question))

theorem settle?_question : ∀ n, types.settle? n question = none
  | 0 => rfl
  | 1 => by
    rw [TypeSystem.settle?_one_premise premises_question]
    rfl
  | n + 2 => by
    rw [TypeSystem.settle?_one_premise premises_question,
      TypeSystem.settle?_one_premise premises_argument]
    exact settle?_question n

theorem shallow : types.Shallow :=
  ClassTable.shallow_toTypeSystem [objectName, "Sink", "Echo"] (by decide) (by decide +kernel)

end Echo

namespace TypeSystem

/-- No type is above itself, and yet a question comes back to itself and is never answered. -/
theorem question_of_echo_never_ends :
    Echo.types.Acyclic ∧ (∀ depth, ¬Echo.types.EndsWithin depth Echo.question) ∧
      ∀ n, Echo.types.settle? n Echo.question = none :=
  ⟨Echo.shallow.acyclic, Echo.nested_question.not_endsWithin, Echo.settle?_question⟩

end TypeSystem

end TypedMustache
