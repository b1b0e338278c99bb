import TypedMustache.Proofs.Overlays

/-! Configuration documents. The logging part of a configuration is read as an overlay on its
defaults, and the configuration, one of whose fields is the logging part, is so too. The document
that is written for a configuration gives every field. So it is read as that configuration,
whatever the defaults are. -/

namespace TypedMustache

open Json (record text)

/-! ### Logging -/

inductive Logging.Field where
  | directory
  | filter
  | toStderr

namespace Logging.Field

def Value : Field → Type
  | directory => Option String
  | filter => String
  | toStderr => Bool

def name : Field → String
  | directory => "directory"
  | filter => "filter"
  | toStderr => "to_stderr"

def get : (f : Field) → Logging → f.Value
  | directory => Logging.directory
  | filter => Logging.filter
  | toStderr => Logging.toStderr

def set : (f : Field) → f.Value → Logging → Logging
  | directory, v, l => { l with directory := v }
  | filter, v, l => { l with filter := v }
  | toStderr, v, l => { l with toStderr := v }

def write : (f : Field) → f.Value → Json
  | directory => Json.option text
  | filter => text
  | toStderr => .bool

end Logging.Field

namespace Logging

theorem overlay_write (f : Field) (v : f.Value) (l : Logging) :
    overlay l (f.name, f.write v) = some (f.set v l) := by
  cases f with
  | directory => cases v <;> rfl
  | filter => rfl
  | toStderr => rfl

/-- The logging part of a configuration, field by field. -/
def layout : Layout Logging where
  Field := Field
  Value := Field.Value
  name := Field.name
  get := Field.get
  set := Field.set
  Writes f v j := j = f.write v
  all := [.directory, .filter, .toStderr]
  overlay := overlay
  mem_all f := by cases f <;> simp
  nodup_names := by decide
  get_set f v l := by cases f <;> rfl
  get_set_of_ne f g v l h := by cases f <;> cases g <;> first | rfl | exact absurd rfl h
  overlay_eq f v j l h := h ▸ overlay_write f v l

theorem ext_get {l l' : Logging} (h : ∀ f, layout.get f l = layout.get f l') : l = l' := by
  obtain ⟨d, s, b⟩ := l
  obtain ⟨d', s', b'⟩ := l'
  have hd : d = d' := h .directory
  have hs : s = s' := h .filter
  have hb : b = b' := h .toStderr
  rw [hd, hs, hb]

/-- Whether an object gives the fields in which `l` differs from the defaults, and maybe more. -/
def Writes (l : Logging) (j : Json) : Prop :=
  ∃ fields given, j = record fields ∧ layout.Gives fields given ∧
    ∀ f, layout.get f l = (given f).getD (layout.get f {})

theorem ofJson?_of_writes {l : Logging} {j : Json} (h : l.Writes j) : ofJson? j = some l := by
  obtain ⟨fields, given, rfl, hgives, hl⟩ := h
  obtain ⟨l', hl', hget⟩ := Layout.exists_given? hgives {}
  have heq : l' = l := ext_get fun f => (hget f).trans (hl f).symm
  exact hl'.trans (congrArg some heq)

theorem writes_toJson (l : Logging) : l.Writes l.toJson :=
  ⟨_, fun f : Field => some (f.get l), rfl,
    layout.gives_map (fun f : Field => f.get l) (fun f : Field => f.write (f.get l)) fun _ => rfl,
    fun _ => rfl⟩

end Logging

/-! ### Configurations -/

inductive Config.Field where
  | renderableInterface
  | format
  | writer
  | unescapedWriter
  | dataName
  | debugComments
  | logging

namespace Config.Field

def Value : Field → Type
  | format => TemplateFormat
  | debugComments => Bool
  | logging => Logging
  | _ => String

def name : Field → String
  | renderableInterface => "renderable_interface"
  | format => "format"
  | writer => "writer"
  | unescapedWriter => "unescaped_writer"
  | dataName => "data_name"
  | debugComments => "debug_comments"
  | logging => "logging"

def get : (f : Field) → Config → f.Value
  | renderableInterface => Config.renderableInterface
  | format => Config.format
  | writer => Config.writer
  | unescapedWriter => Config.unescapedWriter
  | dataName => Config.dataName
  | debugComments => Config.debugComments
  | logging => Config.logging

def set : (f : Field) → f.Value → Config → Config
  | renderableInterface, v, c => { c with renderableInterface := v }
  | format, v, c => { c with format := v }
  | writer, v, c => { c with writer := v }
  | unescapedWriter, v, c => { c with unescapedWriter := v }
  | dataName, v, c => { c with dataName := v }
  | debugComments, v, c => { c with debugComments := v }
  | logging, v, c => { c with logging := v }

/-- The forms of a value: a format may be the only name in an object, and the logging part may
leave fields out. -/
def Writes : (f : Field) → f.Value → Json → Prop
  | renderableInterface, v, j => j = text v
  | format, v, j => j = text v.name ∨ j = record [(v.name, .null)]
  | writer, v, j => j = text v
  | unescapedWriter, v, j => j = text v
  | dataName, v, j => j = text v
  | debugComments, v, j => j = .bool v
  | logging, v, j => v.Writes j

def write : (f : Field) → f.Value → Json
  | renderableInterface => text
  | format => fun v => text v.name
  | writer => text
  | unescapedWriter => text
  | dataName => text
  | debugComments => .bool
  | logging => Logging.toJson

theorem writes_write (f : Field) (v : f.Value) : f.Writes v (f.write v) := by
  cases f with
  | format => exact .inl rfl
  | logging => exact v.writes_toJson
  | _ => exact rfl

end Config.Field

theorem TemplateFormat.ofJson?_name (f : TemplateFormat) :
    ofJson? (Json.text f.name) = some f ∧ ofJson? (record [(f.name, .null)]) = some f := by
  cases f <;> exact ⟨rfl, rfl⟩

namespace Config

theorem overlay_of_writes {f : Field} {v : f.Value} {j : Json} (h : f.Writes v j) (c : Config) :
    overlay c (f.name, j) = some (f.set v c) := by
  cases f with
  | format =>
    have hread : TemplateFormat.ofJson? j = some v := by
      rcases h with rfl | rfl
      exacts [v.ofJson?_name.1, v.ofJson?_name.2]
    exact congrArg (Option.map fun v => { c with format := v }) hread
  | logging =>
    exact congrArg (Option.map fun v => { c with logging := v }) (Logging.ofJson?_of_writes h)
  | _ =>
    cases h
    rfl

/-- The configuration, field by field. -/
def layout : Layout Config where
  Field := Field
  Value := Field.Value
  name := Field.name
  get := Field.get
  set := Field.set
  Writes := Field.Writes
  all := [.renderableInterface, .format, .writer, .unescapedWriter, .dataName, .debugComments,
    .logging]
  overlay := overlay
  mem_all f := by cases f <;> simp
  nodup_names := by decide
  get_set f v c := by cases f <;> rfl
  get_set_of_ne f g v c h := by cases f <;> cases g <;> first | rfl | exact absurd rfl h
  overlay_eq f v j c h := overlay_of_writes h c

theorem ext_get {c c' : Config} (h : ∀ f, layout.get f c = layout.get f c') : c = c' := by
  obtain ⟨r, f, w, u, d, b, l⟩ := c
  obtain ⟨r', f', w', u', d', b', l'⟩ := c'
  have hr : r = r' := h .renderableInterface
  have hf : f = f' := h .format
  have hw : w = w' := h .writer
  have hu : u = u' := h .unescapedWriter
  have hd : d = d' := h .dataName
  have hb : b = b' := h .debugComments
  have hl : l = l' := h .logging
  rw [hr, hf, hw, hu, hd, hb, hl]

theorem isBasic_toJson (c : Config) : c.toJson.isBasic = true := by
  obtain ⟨r, f, w, u, d, b, directory, s, e⟩ := c
  cases directory <;> rfl

theorem gives_toJson (c : Config) :
    ∃ fields, c.toJson = record fields ∧ layout.Gives fields fun f => some (layout.get f c) :=
  ⟨_, rfl, layout.gives_map (fun f : Field => f.get c) (fun f : Field => f.write (f.get c))
    fun f : Field => f.writes_write (f.get c)⟩

theorem exists_visible_iff {s : String} :
    (∃ char ∈ s.toList, Text.isWhiteSpace char = false) ↔ Text.isBlank s = false := by
  simp [Text.isBlank]

theorem check_of_visible {c : Config}
    (h : ∀ name ∈ c.names, ∃ char ∈ name.2.toList, Text.isWhiteSpace char = false) :
    c.check = .ok c := by
  have hblank : c.blankName? = none := by
    rw [blankName?, Option.map_eq_none_iff, List.find?_eq_none]
    exact fun name hname => Bool.eq_false_iff.1 (exists_visible_iff.1 (h name hname))
  rw [check, hblank]

theorem check_of_blank {c : Config} {before after : List (String × String)} {field value : String}
    (hnames : c.names = before ++ (field, value) :: after)
    (hbefore : ∀ name ∈ before, ∃ char ∈ name.2.toList, Text.isWhiteSpace char = false)
    (hblank : ∀ char ∈ value.toList, Text.isWhiteSpace char = true) :
    c.check = .error (.blank field) := by
  have hfirst : c.names.find? (fun name => Text.isBlank name.2) = some (field, value) := by
    rw [List.find?_eq_some_iff_append]
    refine ⟨by simpa [Text.isBlank] using hblank, before, after, hnames, fun name hname => ?_⟩
    rw [exists_visible_iff.1 (hbefore name hname)]
    rfl
  rw [check, blankName?, hfirst, Option.map_some]

/-- A document that gives some fields is read as the defaults with those fields replaced, if the
names that this leaves are not blank. The first blank one is reported otherwise. -/
theorem parse_of_gives {s : String} {fields : List (String × Json)}
    {given : ∀ f : Field, Option f.Value} (hs : Json.parse? s = some (record fields))
    (hgives : layout.Gives fields given) :
    ∃ c : Config, (∀ f : Field, f.get c = (given f).getD (f.get {})) ∧ parse s = c.check := by
  obtain ⟨c, hc, hget⟩ := Layout.exists_given? hgives {}
  have hread : (Json.parse? s).bind ofJson? = some c := by
    rw [hs]
    exact hc
  exact ⟨c, hget, by rw [parse, hread]⟩

theorem check_of_parse {s : String} {c : Config} (h : parse s = .ok c) : c.check = .ok c := by
  rw [parse] at h
  split at h
  case h_1 c' _ =>
    have hc : c' = c := by
      rw [check] at h
      split at h
      · cases h
      · exact Except.ok.inj h
    exact hc ▸ h
  case h_2 => cases h

/-- The document written for a configuration is read as that configuration, in every text that
spells it. -/
theorem parse_of_spelling {c : Config} (hc : c.check = .ok c) {s : String}
    (hs : c.toJson.Spelling s) : parse s = .ok c := by
  obtain ⟨fields, hfields, hgives⟩ := c.gives_toJson
  have hparse := Json.parse?_of_spelling hs
  rw [hfields] at hparse
  obtain ⟨c', hget, hc'⟩ := parse_of_gives hparse hgives
  have heq : c' = c := ext_get hget
  rw [hc', heq, hc]

/-- A configuration document is an overlay on the defaults: the fields that it gives, in whatever
order and among whatever else, are replaced, and the others stay. Names that are left blank are
refused, the first of them by its name. So what has been read is read again from the text that is
written for it. -/
theorem parse_overlay :
    (∀ (s : String) (fields : List (String × Json)) (given : ∀ f : Field, Option f.Value),
      Json.parse? s = some (record fields) → layout.Gives fields given →
      ∃ c : Config, (∀ f : Field, f.get c = (given f).getD (f.get {})) ∧
        ∀ names, names = [("renderable_interface", c.renderableInterface), ("writer", c.writer),
            ("unescaped_writer", c.unescapedWriter), ("data_name", c.dataName)] →
          ((∀ name ∈ names, ∃ char ∈ name.2.toList, Text.isWhiteSpace char = false) →
            parse s = .ok c) ∧
          ∀ before field value after, names = before ++ (field, value) :: after →
            (∀ name ∈ before, ∃ char ∈ name.2.toList, Text.isWhiteSpace char = false) →
            (∀ char ∈ value.toList, Text.isWhiteSpace char = true) →
            parse s = .error (.blank field)) ∧
    ∀ (s : String) (c : Config), parse s = .ok c → parse c.toJson.compact = .ok c := by
  refine ⟨fun s fields given hs hgives => ?_, fun s c h => ?_⟩
  · obtain ⟨c, hget, hc⟩ := parse_of_gives hs hgives
    refine ⟨c, hget, ?_⟩
    rintro names rfl
    refine ⟨fun hvisible => ?_, fun before field value after hnames hbefore hblank => ?_⟩
    · rw [hc, check_of_visible hvisible]
    · rw [hc, check_of_blank hnames hbefore hblank]
  · exact parse_of_spelling (check_of_parse h) (Json.spelling_compact c.isBasic_toJson)

/-- A name, a part of the logging part, and two fields that no reader knows. And a document that
leaves two names blank, of which the later one comes first. -/
theorem parse_overlay_partial :
    parse ("\x7b\"zoom\": 1, \"logging\": \x7b\"to_stderr\": true, \"tag\": []\x7d, " ++
      "\"data_name\": \"it\"\x7d") =
        .ok { dataName := "it", logging := { toStderr := true } } ∧
    parse (toJson { dataName := "it", logging := { toStderr := true } }).compact =
      .ok { dataName := "it", logging := { toStderr := true } } ∧
    parse "\x7b\"data_name\": \"\", \"writer\": \" \"\x7d" = .error (.blank "writer") := by
  let logging : Json := record [("to_stderr", .bool true), ("tag", .array [])]
  have hlogging : Logging.Writes { toStderr := true } logging := by
    refine ⟨_, fun | .toStderr => some true | _ => none, rfl, fun f => ?_, fun f => ?_⟩
    · cases f with
      | toStderr => exact .cons rfl .nil
      | _ => exact .nil
    · cases f <;> rfl
  have hgives : layout.Gives [("zoom", .nat 1), ("logging", logging), ("data_name", text "it")]
      fun | .dataName => some "it" | .logging => some { toStderr := true } | _ => none := by
    intro f
    cases f with
    | dataName => exact .cons rfl .nil
    | logging => exact .cons hlogging .nil
    | _ => exact .nil
  have hread : Json.parse?
      ("\x7b\"zoom\": 1, \"logging\": \x7b\"to_stderr\": true, \"tag\": []\x7d, " ++
        "\"data_name\": \"it\"\x7d") =
          some (record [("zoom", .nat 1), ("logging", logging), ("data_name", text "it")]) := rfl
  obtain ⟨c, hget, hnames⟩ := parse_overlay.1 _ _ _ hread hgives
  have hc : c = { dataName := "it", logging := { toStderr := true } } :=
    ext_get fun f : Field => (hget f).trans (by cases f <;> rfl)
  subst hc
  have hvisible : ∀ name ∈ Config.names { dataName := "it", logging := { toStderr := true } },
      Text.isBlank name.2 = false := by
    decide
  have hparse := (hnames _ rfl).1 fun name hname => exists_visible_iff.2 (hvisible name hname)
  have hblankGives : layout.Gives [("data_name", text ""), ("writer", text " ")]
      fun | .dataName => some "" | .writer => some " " | _ => none := by
    intro f
    cases f with
    | dataName => exact .cons rfl .nil
    | writer => exact .cons rfl .nil
    | _ => exact .nil
  have hblankRead : Json.parse? "\x7b\"data_name\": \"\", \"writer\": \" \"\x7d" =
      some (record [("data_name", text ""), ("writer", text " ")]) := rfl
  obtain ⟨c, hget, hnames⟩ := parse_overlay.1 _ _ _ hblankRead hblankGives
  have hc : c = { dataName := "", writer := " " } :=
    ext_get fun f : Field => (hget f).trans (by cases f <;> rfl)
  subst hc
  have hrefused := (hnames _ rfl).2
    [("renderable_interface", "stachec.runtime.Renderable")] "writer" " "
    [("unescaped_writer", "unescapedWriter"), ("data_name", "")] rfl
    (fun name hname => exists_visible_iff.2 (by rw [List.mem_singleton.1 hname]; decide))
    (List.forall_mem_singleton.2 rfl)
  exact ⟨hparse, parse_overlay.2 _ _ hparse, hrefused⟩

end Config

end TypedMustache
