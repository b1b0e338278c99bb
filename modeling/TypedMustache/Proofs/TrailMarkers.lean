import TypedMustache.Proofs.MarkerBalance
import TypedMustache.Proofs.Trail

/-! The markers of a dotted name, from the values of its trail alone. A section and a
variable open one null test for each leading value that is a reference, in their order,
and then the block of the last value. An inverted section opens one block on the absence
of any of the values. Both start from a scope that is no step, so no marker of an
enclosing scope is among them. -/

namespace TypedMustache

open Outcome

namespace Model

variable (m : Model)

theorem sectionShape_ne_plain {type : JavaType} {shape : Shape}
    (h : m.sectionShape type = .ok shape) : shape ≠ .plain := by
  unfold sectionShape at h
  obtain ⟨ty, -, h⟩ := bind_eq_ok.1 h
  split at h
  · cases h
    simp
  · obtain ⟨capability, -, h⟩ := bind_eq_ok.1 h
    split at h
    · split at h <;> cases h
      simp
    all_goals
      cases h
      simp

end Model

namespace Scope

variable (m : Model)

/-- The header that a leading value opens. -/
def guardHeader (e : Expression) : Header := .test [.notNull e.text]

/-- The conditions on which one of several values counts as absent, outermost first. -/
def stepAbsences : List Expression → Except TypeError (List Condition)
  | [] => .ok []
  | v :: vs => do return (← absence v (← m.sectionShape v.type)) :: (← stepAbsences vs)

/-- The absences of the inverted steps that end at a scope. There are none at any other. -/
def leadingAbsences (s : Scope) : Except TypeError (List Condition) :=
  if s.isStep then s.absences else .ok []

/-- A value that has a member is a reference, so it is guarded by a null test. -/
theorem guardShape_of_findMember {m : Model} {e found : Expression} {name : String}
    (h : m.findMember e name = .ok (some found)) :
    Model.guardShape e.type = .ok .nullable := by
  obtain ⟨ty, hty, -⟩ := Model.findMember_cases h
  simp [Model.guardShape, hty, Except.map, Model.isPrimitive_of_findMember h hty]

theorem guardShape_of_mem_leading {m : Model} {s : Scope} {path : String} {t : Trail}
    (h : s.trail m path = .ok t) : ∀ e ∈ t.leading, Model.guardShape e.type = .ok .nullable := by
  intro e he
  obtain ⟨name, found, hfound⟩ := findMember_of_mem_leading h he
  exact guardShape_of_findMember hfound

theorem headers_enter_guard (s : Scope) {e : Expression}
    (he : Model.guardShape e.type = .ok .nullable) :
    (Scope.same (s.enter m .guard e)).headers = do
      return (← (Scope.same s).headers) ++ [guardHeader e] := by
  have hstep : (Scope.same (s.enter m .guard e)).headers = (s.enter m .guard e).headers := rfl
  have hshape : m.shape e.type .guard = .ok .nullable := he
  rw [hstep, enter, headers_nested rfl, hshape]
  rfl

theorem headers_enterAll_guard {vs : List Expression}
    (hvs : ∀ e ∈ vs, Model.guardShape e.type = .ok .nullable) (s : Scope) :
    (Scope.same (s.enterAll m .guard vs)).headers = do
      return (← (Scope.same s).headers) ++ vs.map guardHeader := by
  induction vs generalizing s with
  | nil => simp only [enterAll_nil, List.map_nil, List.append_nil, bind_pure]
  | cons e vs ih =>
    have hfirst := headers_enter_guard m s (hvs e (by simp))
    have hlater := ih (fun e he => hvs e (List.mem_cons_of_mem _ he)) (s.enter m .guard e)
    simp only [enterAll_cons, hlater, hfirst, bind_assoc, pure_bind, List.append_assoc,
      List.map_cons, List.singleton_append]

/-- A name that is entered over guards opens their null tests and then its own block. -/
theorem headers_enter_guarded (s : Scope) {vs : List Expression}
    (hvs : ∀ e ∈ vs, Model.guardShape e.type = .ok .nullable) {entry : Entry}
    (hentry : entry.isInverted = false) (last : Expression) :
    (((Scope.same s).enterAll m .guard vs).enter m entry last).headers = do
      return vs.map guardHeader ++
        presence last (((Scope.same s).enterAll m .guard vs).depth + 1)
          (← m.shape last.type entry) := by
  have hsame : (Scope.same (Scope.same s)).headers = .ok [] := rfl
  rw [enter, headers_nested hentry, headers_enterAll_guard m hvs, hsame]
  rfl

theorem absences_enter (s : Scope) (entry : Entry) (hentry : entry.isInverted = true)
    (v : Expression) : (s.enter m entry v).absences = do
      return (← s.leadingAbsences) ++ [← absence v (← m.shape v.type entry)] := by
  simp only [enter, absences, hentry, leadingAbsences]
  cases s.isStep <;> rfl

theorem leadingAbsences_enterAll (vs : List Expression) (s : Scope) :
    (s.enterAll m .invertedGuard vs).leadingAbsences = do
      return (← s.leadingAbsences) ++ (← stepAbsences m vs) := by
  induction vs generalizing s with
  | nil => simp only [enterAll_nil, stepAbsences, ok_bind, List.append_nil, bind_pure]
  | cons v vs ih =>
    have hstep : (s.enter m .invertedGuard v).leadingAbsences = do
        return (← s.leadingAbsences) ++ [← absence v (← m.sectionShape v.type)] :=
      absences_enter m s .invertedGuard rfl v
    simp only [enterAll_cons, ih, hstep, stepAbsences, bind_assoc, pure_bind, List.append_assoc,
      List.singleton_append]

theorem headers_enter_inverted (s : Scope) (vs : List Expression) (last : Expression) :
    (((Scope.same s).enterAll m .invertedGuard vs).enter m .inverted last).headers = do
      let leading ← stepAbsences m vs
      return [.test (leading ++ [← absence last (← m.sectionShape last.type)])] := by
  have hsame : (Scope.same s).leadingAbsences = .ok [] := rfl
  have hheaders : ∀ s : Scope, (s.enter m .inverted last).headers =
      (s.enter m .inverted last).absences >>= fun conditions => .ok [.test conditions] :=
    fun _ => rfl
  rw [hheaders, absences_enter m _ .inverted rfl, leadingAbsences_enterAll, hsame]
  simp only [ok_bind, List.nil_append, bind_pure, bind_assoc, pure_bind, Model.shape]
  rfl

end Scope

end TypedMustache
