import Mathlib.Data.List.Nodup
import TypedMustache.Proofs.WildcardPlaces
import TypedMustache.TypeSystem.Supertype

/-! Names and variables in types. Putting arguments in place of parameters removes the
parameters that stand in a type and brings in what stands in the arguments; only the bases of
parameterized types are passed over. What two replacements do to a type, one after the other, is
told by what they do to its names. -/

namespace TypedMustache

namespace JavaType

mutual

/-- The names that stand in a type, those of its bases among them. -/
def mentions : JavaType → List String
  | .declared name => [name]
  | .generic base args => mentions base ++ mentionsAll args
  | .array element _ => mentions element
  | .bounded _ bound => mentions bound
  | _ => []

def mentionsAll : List JavaType → List String
  | [] => []
  | a :: as => mentions a ++ mentionsAll as

end

mutual

/-- The bases of all parameterized types in a type. -/
def bases : JavaType → List JavaType
  | .generic base args => base :: (bases base ++ basesAll args)
  | .array element _ => bases element
  | .bounded _ bound => bases bound
  | _ => []

def basesAll : List JavaType → List JavaType
  | [] => []
  | a :: as => bases a ++ basesAll as

end

theorem mem_mentionsAll {x : String} {as : List JavaType} :
    x ∈ mentionsAll as ↔ ∃ a ∈ as, x ∈ a.mentions := by
  induction as with
  | nil => simp [mentionsAll]
  | cons a as ih => simp [mentionsAll, ih]

theorem addDimensions_assoc (k m n : Nat) :
    addDimensions (addDimensions k m) n = addDimensions k (addDimensions m n) := by
  unfold addDimensions UInt64.size
  omega

end JavaType

namespace Substitution

open JavaType

variable {s : Substitution}

theorem mentions_arrayOver (element : JavaType) (dimensions : Nat) :
    (arrayOver element dimensions).mentions = element.mentions := by
  cases element <;> rfl

theorem arrayOver_arrayOver (element : JavaType) (m n : Nat) :
    arrayOver (arrayOver element m) n = arrayOver element (addDimensions n m) := by
  cases element with
  | array inner k => simp only [arrayOver, addDimensions_assoc]
  | _ => rfl

theorem apply_arrayOver (element : JavaType) (dimensions : Nat) :
    s.apply (arrayOver element dimensions) = arrayOver (s.apply element) dimensions := by
  cases element with
  | array inner n => exact (arrayOver_arrayOver (s.apply inner) n dimensions).symm
  | _ => rfl

theorem applyAll_eq_map (as : List JavaType) : s.applyAll as = as.map s.apply := by
  induction as with
  | nil => rfl
  | cons a as ih => simp [applyAll, ih]

theorem length_applyAll (as : List JavaType) : (s.applyAll as).length = as.length := by
  rw [applyAll_eq_map, List.length_map]

/-! ### What stands in a type after a replacement -/

mutual

/-- A name stands in a type after a replacement if it came with an argument, if it is no variable
that is replaced, or if it stands in a base. -/
theorem mem_mentions_apply {x : String} : ∀ ty : JavaType, x ∈ (s.apply ty).mentions →
    (∃ y ∈ ty.mentions, ∃ arg, s.get? y = some arg ∧ x ∈ arg.mentions) ∨
      (x ∈ ty.mentions ∧ s.get? x = none) ∨ ∃ b ∈ ty.bases, x ∈ b.mentions
  | .declared name, h => by
    simp only [apply] at h
    cases hget : s.get? name with
    | some arg =>
      rw [hget] at h
      exact .inl ⟨name, List.mem_singleton_self name, arg, hget, h⟩
    | none =>
      rw [hget] at h
      obtain rfl := List.mem_singleton.1 h
      exact .inr (.inl ⟨h, hget⟩)
  | .generic base args, h => by
    simp only [apply, mentions, bases, List.mem_append] at h ⊢
    rcases h with h | h
    · exact .inr (.inr ⟨base, List.mem_cons_self, h⟩)
    · rcases mem_mentionsAll_applyAll args h with ⟨y, hy, harg⟩ | ⟨hx, hget⟩ | ⟨b, hb, hx⟩
      · exact .inl ⟨y, .inr hy, harg⟩
      · exact .inr (.inl ⟨.inr hx, hget⟩)
      · exact .inr (.inr ⟨b, List.mem_cons_of_mem _ (List.mem_append_right _ hb), hx⟩)
  | .array element dimensions, h => by
    rw [apply, mentions_arrayOver] at h
    exact mem_mentions_apply element h
  | .bounded _ bound, h => mem_mentions_apply bound h
  | .primitive _, h => by cases h
  | .wildcard _, h => by cases h
  | .unknown, h => by cases h

theorem mem_mentionsAll_applyAll {x : String} : ∀ as : List JavaType,
    x ∈ mentionsAll (s.applyAll as) →
      (∃ y ∈ mentionsAll as, ∃ arg, s.get? y = some arg ∧ x ∈ arg.mentions) ∨
        (x ∈ mentionsAll as ∧ s.get? x = none) ∨ ∃ b ∈ basesAll as, x ∈ b.mentions
  | [], h => by cases h
  | a :: as, h => by
    simp only [applyAll, mentionsAll, basesAll, List.mem_append] at h ⊢
    rcases h with h | h
    · rcases mem_mentions_apply a h with ⟨y, hy, harg⟩ | ⟨hx, hget⟩ | ⟨b, hb, hx⟩
      · exact .inl ⟨y, .inl hy, harg⟩
      · exact .inr (.inl ⟨.inl hx, hget⟩)
      · exact .inr (.inr ⟨b, .inl hb, hx⟩)
    · rcases mem_mentionsAll_applyAll as h with ⟨y, hy, harg⟩ | ⟨hx, hget⟩ | ⟨b, hb, hx⟩
      · exact .inl ⟨y, .inr hy, harg⟩
      · exact .inr (.inl ⟨.inr hx, hget⟩)
      · exact .inr (.inr ⟨b, .inr hb, hx⟩)

end

/-! ### One replacement after another -/

mutual

/-- A replacement does to a type what two others do to it, one after the other, if it does so to
each of the type's names. -/
theorem apply_apply {t u : Substitution} : ∀ ty : JavaType,
    (∀ x ∈ ty.mentions, u.apply (.declared x) = t.apply (s.apply (.declared x))) →
      u.apply ty = t.apply (s.apply ty)
  | .declared name, h => h name (List.mem_singleton_self name)
  | .generic base args, h => by
    simp only [apply]
    rw [applyAll_applyAll args fun x hx => h x (List.mem_append_right _ hx)]
  | .array element dimensions, h => by
    simp only [apply, apply_arrayOver]
    rw [apply_apply element h]
  | .bounded side bound, h => by
    simp only [apply]
    rw [apply_apply bound h]
  | .primitive _, _ => rfl
  | .wildcard _, _ => rfl
  | .unknown, _ => rfl

theorem applyAll_applyAll {t u : Substitution} : ∀ as : List JavaType,
    (∀ x ∈ mentionsAll as, u.apply (.declared x) = t.apply (s.apply (.declared x))) →
      u.applyAll as = t.applyAll (s.applyAll as)
  | [], _ => rfl
  | a :: as, h => by
    simp only [applyAll]
    rw [apply_apply a fun x hx => h x (List.mem_append_left _ hx),
      applyAll_applyAll as fun x hx => h x (List.mem_append_right _ hx)]

end

/-! ### Parameters and their arguments -/

theorem exists_get?_ofParameters {names : List String} {args : List JavaType} {x : String}
    (hx : x ∈ names) (hlength : args.length = names.length) :
    ∃ arg, (ofParameters names args).get? x = some arg := by
  rw [← List.map_fst_zip (Nat.le_of_eq hlength.symm)] at hx
  obtain ⟨entry, hentry, rfl⟩ := List.mem_map.1 hx
  rw [← Option.isSome_iff_exists, get?, ofParameters, entries_foldl_insert, List.append_nil,
    List.lookup_isSome_iff]
  exact ⟨entry, List.mem_reverse.2 hentry, beq_self_eq_true entry.1⟩

/-- If no two parameters are of one name, each of them gives way to its own argument. -/
theorem applyAll_ofParameters {names : List String} {args : List JavaType} (hnames : names.Nodup)
    (hlength : args.length = names.length) :
    (ofParameters names args).applyAll (names.map .declared) = args := by
  have hfst : (names.zip args).map Prod.fst = names :=
    List.map_fst_zip (Nat.le_of_eq hlength.symm)
  have hsnd : (names.zip args).map Prod.snd = args := List.map_snd_zip (Nat.le_of_eq hlength)
  have hpair : ∀ pair ∈ names.zip args,
      (ofParameters names args).apply (.declared pair.1) = pair.2 := by
    intro pair hmem
    obtain ⟨arg, harg⟩ := exists_get?_ofParameters (List.of_mem_zip hmem).1 hlength
    have hsame := List.inj_on_of_nodup_map (hfst.symm ▸ hnames)
      (mem_zip_of_get?_ofParameters harg) hmem rfl
    rw [apply, harg, Option.getD_some, ← hsame]
  calc (ofParameters names args).applyAll (names.map .declared)
      = (names.zip args).map fun pair => (ofParameters names args).apply (.declared pair.1) := by
        rw [applyAll_eq_map, ← hfst, List.map_map, List.map_map, hfst]
        rfl
    _ = (names.zip args).map Prod.snd := List.map_congr_left hpair
    _ = args := hsnd

theorem lookup_map_snd (f : JavaType → JavaType) (x : String) :
    ∀ entries : List (String × JavaType),
      (entries.map fun entry => (entry.1, f entry.2)).lookup x = (entries.lookup x).map f
  | [] => rfl
  | (y, ty) :: rest => by
    rw [List.map_cons, List.lookup_cons, List.lookup_cons, lookup_map_snd f x rest]
    cases x == y <;> rfl

/-- Replacing inside the arguments is replacing inside what they are put in place for. -/
theorem get?_ofParameters_applyAll (names : List String) (args : List JavaType) (x : String) :
    (ofParameters names (s.applyAll args)).get? x =
      ((ofParameters names args).get? x).map s.apply := by
  simp only [get?, ofParameters, entries_foldl_insert, List.append_nil, applyAll_eq_map]
  rw [← lookup_map_snd, List.zip_map_right, List.map_reverse]
  rfl

/-! ### One replacement for two -/

/-- First `s` and then `t`: what `s` puts in place of its variables is seen through `t`, and the
other variables are left to `t`. -/
def andThen (s t : Substitution) : Substitution :=
  ⟨s.entries.map (fun entry => (entry.1, t.apply entry.2)) ++ t.entries⟩

theorem get?_andThen (s t : Substitution) (x : String) :
    (s.andThen t).get? x = ((s.get? x).map t.apply).or (t.get? x) := by
  simp only [get?, andThen]
  rw [List.lookup_append, lookup_map_snd]

theorem apply_declared_andThen (s t : Substitution) (x : String) :
    (s.andThen t).apply (.declared x) = t.apply (s.apply (.declared x)) := by
  rw [apply, get?_andThen, apply]
  cases s.get? x with
  | some ty => rfl
  | none => rfl

/-- Two replacements, one after the other, are one. It takes a variable of the first to what the
second makes of its type, and any other to where the second takes it. -/
theorem apply_andThen (s t : Substitution) :
    (∀ x, (s.andThen t).get? x = ((s.get? x).map t.apply).or (t.get? x)) ∧
      ∀ ty, t.apply (s.apply ty) = (s.andThen t).apply ty := by
  refine ⟨s.get?_andThen t, ?_⟩
  intro ty
  refine (apply_apply ty ?_).symm
  intro x _
  exact s.apply_declared_andThen t x

/-- An array takes in the dimensions that come with either replacement. -/
example : (andThen ⟨[("T", .array (.declared "U") 1)]⟩
    ⟨[("U", .array (.primitive "int") 1)]⟩).apply (.array (.declared "T") 1) =
      .array (.primitive "int") 3 := by
  decide

end Substitution

end TypedMustache
