import TypedMustache.JavaType.Document
import TypedMustache.Proofs.JsonText
import TypedMustache.Proofs.Records

/-! The JSON form of a type says all of the type. A document is still one of the type when the
fields of its objects stand in another order and when there are fields among them that no reader
knows. Data that comes before its kind has to be plain, which the document of a type is as far as
its depth goes and its dimension counts are numbers of 64 bits. So every text of such a document
is read as the type. -/

namespace TypedMustache

namespace Json

mutual

/-- How many arrays and objects stand inside each other. -/
def depth : Json → Nat
  | .array items => depths items + 1
  | .object fields => fieldDepths fields + 1
  | _ => 0

def depths : List Json → Nat
  | [] => 0
  | item :: rest => max (depth item) (depths rest)

def fieldDepths : List (Text × Json) → Nat
  | [] => 0
  | (_, value) :: rest => max (depth value) (fieldDepths rest)

end

/-- Whether the value is a string of characters, a truth value or `null`. -/
def isSimple : Json → Bool
  | .null => true
  | .bool _ => true
  | .string t => t.isSome
  | _ => false

theorem isPlain_of_isSimple {j : Json} (h : j.isSimple = true) (levels : Nat) :
    j.isPlain levels = true := by
  cases j with
  | null => rw [isPlain]
  | bool b => rw [isPlain]
  | string t => rw [isPlain]; exact h
  | _ => cases h

theorem fieldsPlain_record (levels : Nat) (fields : List (String × Json)) :
    fieldsPlain levels (fields.map fun field => (some field.1, field.2)) =
      fields.all fun field => field.2.isPlain levels := by
  induction fields with
  | nil => rw [List.map_nil, fieldsPlain, List.all_nil]
  | cons field fields ih => rw [List.map_cons, fieldsPlain, ih, List.all_cons]; rfl

/-! ### Numbers of 64 bits -/

theorem roundBits_le {n : Nat} (hn : n ≠ 0) : roundBits n ≤ 2 * n := by
  have hunit : Nat.pow 2 (n.log2 - 52) ≤ n :=
    Nat.le_trans (Nat.pow_le_pow_right (by decide) (Nat.sub_le n.log2 52)) (Nat.log2_self_le hn)
  have hbelow : n / Nat.pow 2 (n.log2 - 52) * Nat.pow 2 (n.log2 - 52) ≤ n := Nat.div_mul_le_self n _
  simp only [roundBits]
  split
  · omega
  · rw [Nat.add_mul, Nat.one_mul]
    omega

theorem isFinite_ofNat {n : Nat} (hn : n < UInt64.size) : (Number.ofNat n).isFinite = true := by
  have hlength : (Nat.toDigits 10 n).length - 20 = 0 := by
    have hbound : n < 10 ^ 20 := Nat.lt_trans hn (by decide)
    exact Nat.sub_eq_zero_of_le ((Nat.length_toDigits_le_iff (by decide) (by decide)).2 hbound)
  have hdigits : (Number.ofNat n).leadingDigits = (n, 0) := by
    simp [Number.leadingDigits, Number.ofNat, hlength, hn]
  by_cases hzero : n = 0
  · subst hzero
    rfl
  · have hround := roundBits_le hzero
    have hone : roundBits (Nat.pow 10 0) = 1 := by decide
    have hlimit : 2 * UInt64.size < binary64Limit := by decide +kernel
    have hproduct : roundBits n * roundBits (Nat.pow 10 0) < binary64Limit := by
      rw [hone, Nat.mul_one]
      omega
    rw [Number.isFinite, hdigits]
    simpa [Number.ofNat] using Or.inr hproduct

end Json

namespace JavaType

open Json (Access fieldsAmong? record)

/-- The names of the fields that an object of a type's document may have, told from those that it
has: what has a kind may have data. -/
def declaredNames (names : List String) : List String :=
  if names.contains "kind" then ["kind", "data"] else names

mutual

/-- Whether a document says the same as another one, with the fields of its objects in any order
and simple fields of other names among them. -/
inductive Restates : Json → Json → Prop where
  | leaf {j : Json} (h : j.depth = 0) : Restates j j
  | array {items items' : List Json} (h : RestatesItems items items') :
      Restates (.array items) (.array items')
  | object {fields : List (Json.Text × Json)} {kept added given : List (String × Json)}
      (hkept : RestatesFields fields kept) (hgiven : given.Perm (kept ++ added))
      (hadded : ∀ field ∈ added,
        field.1 ∉ declaredNames (kept.map Prod.fst) ∧ field.2.isSimple = true) :
      Restates (.object fields) (record given)

inductive RestatesItems : List Json → List Json → Prop where
  | nil : RestatesItems [] []
  | cons {j j' : Json} {items items' : List Json} (hj : Restates j j')
      (hitems : RestatesItems items items') : RestatesItems (j :: items) (j' :: items')

inductive RestatesFields : List (Json.Text × Json) → List (String × Json) → Prop where
  | nil : RestatesFields [] []
  | cons {name : String} {j j' : Json} {fields : List (Json.Text × Json)}
      {kept : List (String × Json)} (hj : Restates j j') (hfields : RestatesFields fields kept) :
      RestatesFields ((some name, j) :: fields) ((name, j') :: kept)

end

mutual

theorem isPlain_of_restates {levels : Nat} : ∀ {j j' : Json}, Restates j j' →
    j.isPlain levels = true → j'.isPlain levels = true
  | _, _, .leaf _, h => h
  | _, _, .array hitems, h => by
    cases levels with
    | zero => simp [Json.isPlain] at h
    | succ levels =>
      rw [Json.isPlain] at h ⊢
      exact arePlain_of_restates hitems h
  | _, _, .object hkept hgiven hadded, h => by
    cases levels with
    | zero => simp [Json.isPlain] at h
    | succ levels =>
      rw [record, Json.isPlain, Json.fieldsPlain_record, hgiven.all_eq, List.all_append,
        Bool.and_eq_true]
      rw [Json.isPlain] at h
      exact ⟨fieldsPlain_of_restates hkept h,
        List.all_eq_true.2 fun field hfield => Json.isPlain_of_isSimple (hadded field hfield).2 _⟩

theorem arePlain_of_restates {levels : Nat} : ∀ {items items' : List Json},
    RestatesItems items items' → Json.arePlain levels items = true →
      Json.arePlain levels items' = true
  | _, _, .nil, h => h
  | _, _, .cons hj hitems, h => by
    rw [Json.arePlain, Bool.and_eq_true] at h ⊢
    exact ⟨isPlain_of_restates hj h.1, arePlain_of_restates hitems h.2⟩

theorem fieldsPlain_of_restates {levels : Nat} : ∀ {fields : List (Json.Text × Json)}
    {kept : List (String × Json)}, RestatesFields fields kept →
      Json.fieldsPlain levels fields = true → (kept.all fun field => field.2.isPlain levels) = true
  | _, _, .nil, _ => rfl
  | _, _, .cons hj hfields, h => by
    rw [Json.fieldsPlain, Bool.and_eq_true, Bool.and_eq_true] at h
    rw [List.all_cons, Bool.and_eq_true]
    exact ⟨isPlain_of_restates hj h.1.2, fieldsPlain_of_restates hfields h.2⟩

end

/-! ### What is read of a document -/

theorem names_of_restates {fields : List (String × Json)} {kept : List (String × Json)}
    (h : RestatesFields (fields.map fun field => (some field.1, field.2)) kept) :
    kept.map Prod.fst = fields.map Prod.fst := by
  induction fields generalizing kept with
  | nil =>
    cases h
    rfl
  | cons field fields ih =>
    cases h with
    | cons _ hfields => simp [ih hfields]

/-- A reader takes from an object that says the same what it takes from the object. -/
theorem fieldsAmong?_of_restates {fields : List (String × Json)} {names : List String} {j : Json}
    (hnames : fields.map Prod.fst = names) (hnodup : names.Nodup)
    (hknown : names ⊆ declaredNames names) (h : Restates (record fields) j) :
    ∃ given kept found, j = .object given ∧
      RestatesFields (fields.map fun field => (some field.1, field.2)) kept ∧
      fieldsAmong? (declaredNames names) given = some found ∧ found.Perm kept := by
  cases h with
  | leaf h => simp [record, Json.depth] at h
  | @object _ kept added given hkept hgiven hadded =>
    have hkeptNames : kept.map Prod.fst = names := (names_of_restates hkept).trans hnames
    rw [hkeptNames] at hadded
    obtain ⟨found, hfound, hperm⟩ := Json.exists_fieldsAmong? hgiven
      (fun field hfield => hknown (hkeptNames ▸ List.mem_map_of_mem hfield))
      (hkeptNames ▸ hnodup) (fun field hfield => (hadded field hfield).1)
    exact ⟨_, kept, found, rfl, hkept, hfound, hperm⟩

theorem eq_of_restates_leaf {j j' : Json} (hj : j.depth = 0) (h : Restates j j') : j' = j := by
  cases h with
  | leaf => rfl
  | array => simp [Json.depth] at hj
  | object => simp [Json.depth] at hj

theorem ofField?_name (access : Access) (levels : Nat) (kind : Kind) :
    Kind.ofField? access levels (.text kind.name) = some kind := by
  have hword : Json.toWord? access levels (.text kind.name) = some kind.name := by
    cases levels <;> rfl
  rw [Kind.ofField?, hword]
  cases kind <;> rfl

/-- A document of a kind with data is taken apart into these, in whatever order they stand. -/
theorem tagged?_of_restates (access : Access) {levels : Nat} {kind : Kind} {data j : Json}
    (hplain : data.isPlain levels = true) (h : Restates (tagged kind data) j) :
    ∃ data' access', Restates data data' ∧
      tagged? access levels j = some ⟨kind, some data', access'⟩ := by
  have hnames : [("kind", Json.text kind.name), ("data", data)].map Prod.fst = ["kind", "data"] :=
    rfl
  obtain ⟨given, kept, found, rfl, hkept, hfound, hperm⟩ :=
    fieldsAmong?_of_restates hnames (by decide) (by decide) h
  obtain _ | ⟨hkind, _ | @⟨_, _, data', _, _, hdata, _ | _⟩⟩ := hkept
  obtain rfl := eq_of_restates_leaf rfl hkind
  have hfound' : fieldsAmong? ["kind", "data"] given = some found := hfound
  rcases Json.eq_or_eq_of_perm_pair hperm with rfl | rfl
  · refine ⟨data', access, hdata, ?_⟩
    simp only [tagged?, hfound', Option.bind_eq_bind, Option.bind_some, ofField?_name,
      Option.map_some]
  · refine ⟨data', .stored, hdata, ?_⟩
    simp only [tagged?, hfound', Option.bind_eq_bind, Option.bind_some, ofField?_name,
      Option.map_some, isPlain_of_restates hdata hplain, if_true]

/-! ### The document of a type -/

theorem depth_tagged (kind : Kind) (data : Json) : (tagged kind data).depth = data.depth + 1 := by
  simp [tagged, record, Json.depth, Json.fieldDepths, Json.text]

theorem depth_record_pair (x y : String) (a b : Json) :
    (record [(x, a), (y, b)]).depth = max a.depth b.depth + 1 := by
  simp [record, Json.depth, Json.fieldDepths]

theorem isPlain_tagged (kind : Kind) (data : Json) (levels : Nat) :
    (tagged kind data).isPlain (levels + 1) = data.isPlain levels := by
  simp [tagged, record, Json.isPlain, Json.fieldsPlain, Json.text]

theorem isPlain_record_pair (x y : String) (a b : Json) (levels : Nat) :
    (record [(x, a), (y, b)]).isPlain (levels + 1) = (a.isPlain levels && b.isPlain levels) := by
  simp [record, Json.isPlain, Json.fieldsPlain]

/-- Whether only the depth can keep the value from being plain. -/
def PlainWithinDepth (j : Json) : Prop := ∀ levels, j.depth ≤ levels → j.isPlain levels = true

namespace PlainWithinDepth

theorem of_isSimple {j : Json} (h : j.isSimple = true) : PlainWithinDepth j :=
  fun levels _ => Json.isPlain_of_isSimple h levels

theorem nat {n : Nat} (hn : n < UInt64.size) : PlainWithinDepth (.nat n) :=
  fun levels _ => by rw [Json.nat, Json.isPlain, Json.isFinite_ofNat hn]

theorem tagged (kind : Kind) {data : Json} (h : PlainWithinDepth data) :
    PlainWithinDepth (tagged kind data)
  | 0, hdepth => by simp [depth_tagged] at hdepth
  | levels + 1, hdepth => by
    rw [depth_tagged] at hdepth
    rw [isPlain_tagged, h levels (Nat.le_of_succ_le_succ hdepth)]

theorem pair (x y : String) {a b : Json} (ha : PlainWithinDepth a) (hb : PlainWithinDepth b) :
    PlainWithinDepth (record [(x, a), (y, b)])
  | 0, hdepth => by simp [depth_record_pair] at hdepth
  | levels + 1, hdepth => by
    rw [depth_record_pair] at hdepth
    obtain ⟨hle, hle'⟩ := Nat.max_le.1 (Nat.le_of_succ_le_succ hdepth)
    rw [isPlain_record_pair, ha levels hle, hb levels hle']
    rfl

end PlainWithinDepth

mutual

theorem plainWithinDepth_toJson : ∀ {t : JavaType}, t.dimensionsFit = true →
    PlainWithinDepth t.toJson
  | .primitive keyword, _ => .tagged .raw (.of_isSimple rfl)
  | .declared name, _ => .tagged .id (.of_isSimple rfl)
  | .generic base args, hfit => by
    rw [dimensionsFit, Bool.and_eq_true] at hfit
    have hargs : PlainWithinDepth (.array (toJsons args))
      | 0, hdepth => by simp [Json.depth] at hdepth
      | levels + 1, hdepth => by
        rw [Json.isPlain]
        exact arePlain_toJsons hfit.2 levels (Nat.le_of_succ_le_succ hdepth)
    exact .tagged .generic (.pair "base" "args" (plainWithinDepth_toJson hfit.1) hargs)
  | .array element dimensions, hfit => by
    rw [dimensionsFit, Bool.and_eq_true, decide_eq_true_eq] at hfit
    exact .tagged .array
      (.pair "element" "dimensions" (plainWithinDepth_toJson hfit.1) (.nat hfit.2))
  | .wildcard side, _ =>
    .tagged .wildcard (.pair "bound" "is_upper_bound" (.of_isSimple rfl) (.of_isSimple rfl))
  | .bounded side bound, hfit =>
    .tagged .wildcard
      (.pair "bound" "is_upper_bound" (plainWithinDepth_toJson hfit) (.of_isSimple rfl))
  | .unknown, _ => by
    rintro (_ | levels) hdepth
    · simp [toJson, record, Json.depth] at hdepth
    · simp [toJson, record, Json.isPlain, Json.fieldsPlain, Json.text]

theorem arePlain_toJsons : ∀ {ts : List JavaType}, allDimensionsFit ts = true →
    ∀ levels, Json.depths (toJsons ts) ≤ levels → Json.arePlain levels (toJsons ts) = true
  | [], _, levels, _ => by rw [toJsons, Json.arePlain]
  | t :: ts, hfit, levels, hdepth => by
    rw [allDimensionsFit, Bool.and_eq_true] at hfit
    rw [toJsons, Json.depths, Nat.max_le] at hdepth
    rw [toJsons, Json.arePlain, plainWithinDepth_toJson hfit.1 levels hdepth.1,
      arePlain_toJsons hfit.2 levels hdepth.2]
    rfl

end

/-- A document of a kind with data is read as its data is. -/
theorem ofJson?_of_restates_tagged {access : Access} {levels : Nat} {kind : Kind} {data j : Json}
    {t : JavaType} (hdepth : (tagged kind data).depth ≤ levels)
    (hplain : PlainWithinDepth (tagged kind data)) (h : Restates (tagged kind data) j)
    (hdata : ∀ levels' data' access', data.depth ≤ levels' → Restates data data' →
      ofData? access' levels' kind (some data') = some t) :
    ofJson? access levels j = some t := by
  cases levels with
  | zero => simp [depth_tagged] at hdepth
  | succ levels =>
    have hplain' := hplain (levels + 1) hdepth
    rw [isPlain_tagged] at hplain'
    rw [depth_tagged] at hdepth
    obtain ⟨data', access', hrestates, htagged⟩ := tagged?_of_restates access hplain' h
    rw [ofJson?, htagged, Option.bind_some]
    exact hdata levels data' access' (Nat.le_of_succ_le_succ hdepth) hrestates

theorem exists_lookup_of_restates {x y : String} {a b j : Json} (hxy : [x, y].Nodup)
    (hdeclared : declaredNames [x, y] = [x, y]) (h : Restates (record [(x, a), (y, b)]) j) :
    ∃ a' b' given found, j = .object given ∧ Restates a a' ∧ Restates b b' ∧
      fieldsAmong? [x, y] given = some found ∧ found.lookup x = some a' ∧
      found.lookup y = some b' := by
  have hnames : [(x, a), (y, b)].map Prod.fst = [x, y] := rfl
  have hknown : [x, y] ⊆ declaredNames [x, y] := by rw [hdeclared]; exact List.Subset.refl _
  obtain ⟨given, kept, found, rfl, hkept, hfound, hperm⟩ :=
    fieldsAmong?_of_restates hnames hxy hknown h
  obtain _ | @⟨_, _, a', _, _, ha, _ | @⟨_, _, b', _, _, hb, _ | _⟩⟩ := hkept
  rw [hdeclared] at hfound
  have hne : y ≠ x := fun h => by simp [h] at hxy
  refine ⟨a', b', given, found, rfl, ha, hb, hfound, ?_, ?_⟩
  · rw [Json.lookup_of_perm hperm hxy]
    simp
  · rw [Json.lookup_of_perm hperm hxy]
    simp [List.lookup_cons, beq_false_of_ne hne]

theorem exists_object_of_restates {t : JavaType} {j : Json} (h : Restates t.toJson j) :
    ∃ fields, j = .object fields := by
  obtain ⟨fields, hfields⟩ : ∃ fields, t.toJson = .object fields := by
    cases t <;> exact ⟨_, rfl⟩
  rw [hfields] at h
  cases h with
  | leaf h => simp [Json.depth] at h
  | object => exact ⟨_, rfl⟩

mutual

/-- A document that says the same as that of a type is read as the type. -/
theorem ofJson?_of_restates : ∀ {t : JavaType} {access : Access} {levels : Nat} {j : Json},
    t.dimensionsFit = true → t.toJson.depth ≤ levels → Restates t.toJson j →
      ofJson? access levels j = some t
  | .primitive keyword, access, levels, j, hfit, hdepth, h => by
    refine ofJson?_of_restates_tagged hdepth (plainWithinDepth_toJson hfit) h ?_
    rintro levels' data' access' - hdata
    rw [eq_of_restates_leaf rfl hdata]
    cases levels' <;> rfl
  | .declared name, access, levels, j, hfit, hdepth, h => by
    refine ofJson?_of_restates_tagged hdepth (plainWithinDepth_toJson hfit) h ?_
    rintro levels' data' access' - hdata
    rw [eq_of_restates_leaf rfl hdata]
    cases levels' <;> rfl
  | .generic base args, access, levels, j, hfit, hdepth, h => by
    refine ofJson?_of_restates_tagged hdepth (plainWithinDepth_toJson hfit) h ?_
    rintro (_ | levels') data' access' hdepth' hdata
    · simp [depth_record_pair] at hdepth'
    obtain ⟨base', args', given, found, rfl, hbase, hargs, hfound, hlookup, hlookup'⟩ :=
      exists_lookup_of_restates (by decide) rfl hdata
    rw [dimensionsFit, Bool.and_eq_true] at hfit
    rw [depth_record_pair, Nat.add_le_add_iff_right, Nat.max_le] at hdepth'
    cases hargs with
    | leaf hleaf => simp [Json.depth] at hleaf
    | @array _ items hitems =>
      have hread : ofItems? access' levels' (.array items) = some args := by
        match levels', hdepth'.2 with
        | 0, hdepthArgs => simp [Json.depth] at hdepthArgs
        | levels' + 1, hdepthArgs =>
          exact mapM_ofJson?_of_restates hfit.2 (Nat.le_of_succ_le_succ hdepthArgs) hitems
      simp only [ofData?, hfound, hlookup, hlookup', Option.bind_eq_bind, Option.bind_some,
        ofJson?_of_restates hfit.1 hdepth'.1 hbase, hread]
      rfl
  | .array element dimensions, access, levels, j, hfit, hdepth, h => by
    refine ofJson?_of_restates_tagged hdepth (plainWithinDepth_toJson hfit) h ?_
    rintro (_ | levels') data' access' hdepth' hdata
    · simp [depth_record_pair] at hdepth'
    obtain ⟨element', count, given, found, rfl, helement, hcount, hfound, hlookup, hlookup'⟩ :=
      exists_lookup_of_restates (by decide) rfl hdata
    obtain rfl := eq_of_restates_leaf rfl hcount
    rw [dimensionsFit, Bool.and_eq_true, decide_eq_true_eq] at hfit
    rw [depth_record_pair, Nat.add_le_add_iff_right, Nat.max_le] at hdepth'
    have hcount' : dimensions? (.nat dimensions) = some dimensions := by
      simp [dimensions?, Json.nat, Json.Number.ofNat, Json.Number.toNat?, hfit.2]
    simp only [ofData?, hfound, hlookup, hlookup', Option.bind_eq_bind, Option.bind_some,
      ofJson?_of_restates hfit.1 hdepth'.1 helement, hcount']
    rfl
  | .wildcard side, access, levels, j, hfit, hdepth, h => by
    refine ofJson?_of_restates_tagged hdepth (plainWithinDepth_toJson hfit) h ?_
    rintro (_ | levels') data' access' hdepth' hdata
    · simp [depth_record_pair] at hdepth'
    obtain ⟨bound, isUpper, given, found, rfl, hbound, hupper, hfound, hlookup, hlookup'⟩ :=
      exists_lookup_of_restates (by decide) rfl hdata
    obtain rfl := eq_of_restates_leaf rfl hbound
    obtain rfl := eq_of_restates_leaf rfl hupper
    simp only [ofData?, hfound, hlookup, hlookup', Option.bind_eq_bind, Option.bind_some,
      Json.toBool?]
    cases side <;> rfl
  | .bounded side bound, access, levels, j, hfit, hdepth, h => by
    refine ofJson?_of_restates_tagged hdepth (plainWithinDepth_toJson hfit) h ?_
    rintro (_ | levels') data' access' hdepth' hdata
    · simp [depth_record_pair] at hdepth'
    obtain ⟨bound', isUpper, given, found, rfl, hbound, hupper, hfound, hlookup, hlookup'⟩ :=
      exists_lookup_of_restates (by decide) rfl hdata
    obtain rfl := eq_of_restates_leaf rfl hupper
    rw [depth_record_pair, Nat.add_le_add_iff_right, Nat.max_le] at hdepth'
    have hread : ofJson? access' levels' bound' = some bound :=
      ofJson?_of_restates hfit hdepth'.1 hbound
    obtain ⟨fields, rfl⟩ := exists_object_of_restates hbound
    simp only [ofData?, hfound, hlookup, hlookup', Option.bind_eq_bind, Option.bind_some,
      Json.toBool?, hread]
    cases side <;> rfl
  | .unknown, access, levels, j, _, hdepth, h => by
    cases levels with
    | zero => simp [toJson, record, Json.depth] at hdepth
    | succ levels =>
      have hnames : [("kind", Json.text Kind.unknown.name)].map Prod.fst = ["kind"] := rfl
      obtain ⟨given, kept, found, rfl, hkept, hfound, hperm⟩ :=
        fieldsAmong?_of_restates hnames (by decide) (by decide) h
      obtain _ | ⟨hkind, _ | _⟩ := hkept
      obtain rfl := eq_of_restates_leaf rfl hkind
      obtain rfl := List.perm_singleton.1 hperm
      have hfound' : fieldsAmong? ["kind", "data"] given = some [_] := hfound
      have htagged : tagged? access levels (.object given) = some ⟨.unknown, none, access⟩ := by
        simp only [tagged?, hfound', Option.bind_eq_bind, Option.bind_some, ofField?_name,
          Option.map_some]
      rw [ofJson?, htagged]
      cases levels <;> rfl

theorem mapM_ofJson?_of_restates : ∀ {ts : List JavaType} {access : Access} {levels : Nat}
    {items : List Json}, allDimensionsFit ts = true → Json.depths (toJsons ts) ≤ levels →
      RestatesItems (toJsons ts) items → items.mapM (ofJson? access levels) = some ts
  | [], access, levels, items, _, _, h => by
    cases h
    rfl
  | t :: ts, access, levels, items, hfit, hdepth, h => by
    rw [allDimensionsFit, Bool.and_eq_true] at hfit
    rw [toJsons, Json.depths, Nat.max_le] at hdepth
    cases h with
    | cons hj hitems =>
      rw [List.mapM_cons, ofJson?_of_restates hfit.1 hdepth.1 hj,
        mapM_ofJson?_of_restates hfit.2 hdepth.2 hitems]
      rfl

end

/-! ### Texts -/

mutual

theorem isBasic_toJson : ∀ t : JavaType, t.toJson.isBasic = true
  | .primitive _ => rfl
  | .declared _ => rfl
  | .generic base args => by
    simp [toJson, tagged, record, Json.isBasic, Json.fieldsBasic, Json.text, isBasic_toJson base,
      areBasic_toJsons args]
  | .array element _ => by
    simp [toJson, tagged, record, Json.isBasic, Json.fieldsBasic, Json.text, Json.nat,
      Json.Number.ofNat, isBasic_toJson element]
  | .wildcard _ => rfl
  | .bounded _ bound => by
    simp [toJson, tagged, record, Json.isBasic, Json.fieldsBasic, Json.text, isBasic_toJson bound]
  | .unknown => rfl

theorem areBasic_toJsons : ∀ ts : List JavaType, Json.areBasic (toJsons ts) = true
  | [] => rfl
  | t :: ts => by simp [toJsons, Json.areBasic, isBasic_toJson t, areBasic_toJsons ts]

end

mutual

theorem restates_self : ∀ {j : Json}, j.isBasic = true → Restates j j
  | .null, _ => .leaf rfl
  | .bool _, _ => .leaf rfl
  | .number _, _ => .leaf rfl
  | .string _, _ => .leaf rfl
  | .array items, h => .array (restatesItems_self h)
  | .object fields, h => by
    obtain ⟨kept, hkept, rfl⟩ := restatesFields_self h
    exact .object hkept (List.Perm.of_eq (List.append_nil kept).symm)
      fun _ hfield => by cases hfield

theorem restatesItems_self : ∀ {items : List Json}, Json.areBasic items = true →
    RestatesItems items items
  | [], _ => .nil
  | j :: items, h => by
    rw [Json.areBasic, Bool.and_eq_true] at h
    exact .cons (restates_self h.1) (restatesItems_self h.2)

theorem restatesFields_self : ∀ {fields : List (Json.Text × Json)},
    Json.fieldsBasic fields = true → ∃ kept, RestatesFields fields kept ∧
      (kept.map fun field => (some field.1, field.2)) = fields
  | [], _ => ⟨[], .nil, rfl⟩
  | (none, j) :: fields, h => by simp [Json.fieldsBasic] at h
  | (some name, j) :: fields, h => by
    rw [Json.fieldsBasic, Bool.and_eq_true, Bool.and_eq_true] at h
    obtain ⟨kept, hkept, rfl⟩ := restatesFields_self h.2
    exact ⟨(name, j) :: kept, .cons (restates_self h.1.2) hkept, rfl⟩

end

/-- The compact text of a type's document is read as the type, and so is every text of a document
that says the same, if the document is no deeper than a reader follows and counts dimensions in
numbers of 64 bits. -/
theorem parse?_of_restates {t : JavaType} (hfit : t.dimensionsFit = true)
    (hdepth : t.toJson.depth ≤ 127) :
    parse? t.toJson.compact = some t ∧
      ∀ j s, Restates t.toJson j → j.Spelling s → parse? s = some t := by
  have hread : ∀ j s, Restates t.toJson j → j.Spelling s → parse? s = some t := by
    intro j s hj hs
    rw [parse?, Json.parse?_of_spelling hs, Option.bind_some]
    exact ofJson?_of_restates hfit hdepth hj
  have hbasic := isBasic_toJson t
  exact ⟨hread _ _ (restates_self hbasic) (Json.spelling_compact hbasic), hread⟩

/-- The data of a wildcard before its kind, with a field that no reader knows. -/
theorem parse?_of_restates_wildcard :
    (JavaType.bounded .lower (.primitive "int")).dimensionsFit = true ∧
      (JavaType.bounded .lower (.primitive "int")).toJson.depth ≤ 127 ∧
      parse? ("\x7b\"data\":\x7b\"is_upper_bound\":false,\"note\":\"\"," ++
        "\"bound\":\x7b\"kind\":\"Raw\",\"data\":\"int\"\x7d\x7d,\"kind\":\"Wildcard\"\x7d") =
          some (.bounded .lower (.primitive "int")) := by
  have hfit : (JavaType.bounded .lower (.primitive "int")).dimensionsFit = true := rfl
  have hdepth : (JavaType.bounded .lower (.primitive "int")).toJson.depth ≤ 127 := by decide
  let bound : String × Json := ("bound", (JavaType.primitive "int").toJson)
  let isUpper : String × Json := ("is_upper_bound", .bool false)
  let note : String × Json := ("note", .text "")
  have hrotate : ([isUpper, note] ++ [bound]).Perm ([bound] ++ [isUpper, note]) :=
    List.perm_append_comm
  have horder : [isUpper, note, bound].Perm ([bound, isUpper] ++ [note]) := hrotate
  have hdata : Restates (record [bound, isUpper]) (record [isUpper, note, bound]) :=
    .object (.cons (restates_self rfl) (.cons (.leaf rfl) .nil)) horder (by decide)
  have hswap : [("data", record [isUpper, note, bound]), ("kind", .text "Wildcard")].Perm
      ([("kind", .text "Wildcard"), ("data", record [isUpper, note, bound])] ++ []) :=
    List.Perm.swap _ _ _
  have hdocument : Restates (JavaType.bounded .lower (.primitive "int")).toJson
      (record [("data", record [isUpper, note, bound]), ("kind", .text "Wildcard")]) :=
    .object (.cons (.leaf rfl) (.cons hdata .nil)) hswap nofun
  refine ⟨hfit, hdepth, (parse?_of_restates hfit hdepth).2 _ _ hdocument ?_⟩
  have htext := Json.spelling_compact
    (j := record [("data", record [isUpper, note, bound]), ("kind", .text "Wildcard")]) rfl
  have hcompact : Json.compact
      (record [("data", record [isUpper, note, bound]), ("kind", .text "Wildcard")]) =
        "\x7b\"data\":\x7b\"is_upper_bound\":false,\"note\":\"\"," ++
          "\"bound\":\x7b\"kind\":\"Raw\",\"data\":\"int\"\x7d\x7d,\"kind\":\"Wildcard\"\x7d" := by
    decide +kernel
  rwa [hcompact] at htext

end JavaType

end TypedMustache
