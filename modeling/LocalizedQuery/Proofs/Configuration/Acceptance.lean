import LocalizedQuery.Configuration.Build
import LocalizedQuery.Proofs.LocalizedModel
import LocalizedQuery.Proofs.NameMap

/-!
# Which settings are accepted

Settings are accepted if every model in them is consistent: it has groups, their types are known,
each lists attributes, and no attribute is listed twice in all of its groups together. Then every
model has a backend for each group, in the same order and with the attributes that the group lists.
Otherwise the error is about the first model that is not consistent and, in it, about the first
group that does not fit behind those before it.

## Implementation notes

A group is judged by the names that the groups before it list (`GroupSettings.Fits`,
`GroupSettings.Offence`), while it is attached to the backends built so far. These agree because a
backend keeps exactly the attributes of its group (`GroupSettings.Describes`), which is what the
induction over the groups carries along.

## Main results

* `GroupSettings.fits_or_offence` — a group fits or has one thing wrong with it
* `ModelSettings.build_of_consistent`, `ModelSettings.build_of_offence` — one model
* `Settings.registry_accepts_consistent` — all models
-/

namespace LocalizedQuery

/-! ## Groups -/

namespace GroupSettings

/-- The attributes that a group lists. -/
def attributeNames : GroupSettings → List String
  | .keyValue settings => settings.attributeNames
  | .table settings => settings.attributeNames

/-- The name of the way a group keeps its attributes. -/
def backendName : GroupSettings → String
  | .keyValue _ => "key_value"
  | .table _ => "table"

/-- A key-value group has one of the two types. -/
def HasKnownType : GroupSettings → Prop
  | .keyValue settings => settings.typeName = "string" ∨ settings.typeName = "text"
  | .table _ => True

instance : DecidablePred HasKnownType
  | .keyValue settings =>
    inferInstanceAs (Decidable (settings.typeName = "string" ∨ settings.typeName = "text"))
  | .table _ => inferInstanceAs (Decidable True)

/-- `b` keeps the attributes of a group in the way that the group declares. -/
inductive Describes (model : Model) : GroupSettings → Backend → Prop
  | keyValue {settings : KeyValueSettings} {b : KeyValueBackend} :
      b.model = model → b.type.name = settings.typeName →
      b.table = settings.table.getD b.type.defaultTable →
      b.columns = settings.columns.getD {} → b.attributeNames = settings.attributeNames →
      Describes model (.keyValue settings) (.keyValue b)
  | table {settings : TableSettings} {b : TableBackend} :
      b.model = model → b.table = settings.table.getD (model.singular ++ "_translations") →
      b.foreignKey = settings.foreignKey.getD (model.singular ++ "_id") →
      b.localeColumn = "locale" → b.attributeNames = settings.attributeNames →
      Describes model (.table settings) (.table b)

/-- `name` is the first of `names` that is listed a second time, in `names` or behind `earlier`. -/
def FirstRepeated (earlier names : List String) (name : String) : Prop :=
  ∃ before after, names = before ++ name :: after ∧ (name ∈ earlier ∨ name ∈ before) ∧
    (∀ other ∈ before, other ∉ earlier) ∧ before.Nodup

/-- A group that may stand behind groups with the attributes `earlier`. -/
structure Fits (earlier : List String) (group : GroupSettings) : Prop where
  known : group.HasKnownType
  nonempty : group.attributeNames ≠ []
  apart : ∀ name ∈ group.attributeNames, name ∉ earlier
  nodup : group.attributeNames.Nodup

/-- What is wrong with a group behind groups with the attributes `earlier`. Of several things the
type counts before the list, and the list before what stands in it. -/
inductive Offence (table : String) (earlier : List String) :
    GroupSettings → ConfigurationError → Prop
  | unknownType {settings : KeyValueSettings} : ¬(GroupSettings.keyValue settings).HasKnownType →
      Offence table earlier (.keyValue settings) (.unknownKeyValueType table settings.typeName)
  | noAttributes {group : GroupSettings} : group.HasKnownType → group.attributeNames = [] →
      Offence table earlier group (.noAttributes group.backendName table)
  | repeated {group : GroupSettings} {name : String} : group.HasKnownType →
      FirstRepeated earlier group.attributeNames name →
      Offence table earlier group (.duplicateAttribute table name)

variable {model : Model} {id : BackendId} {group : GroupSettings} {b : Backend}
  {table : String} {earlier : List String} {error : ConfigurationError}

theorem Describes.model_eq (h : group.Describes model b) : b.model = model := by
  cases h with
  | keyValue hmodel => exact hmodel
  | table hmodel => exact hmodel

theorem Describes.name_eq (h : group.Describes model b) : b.name = group.backendName := by
  cases h <;> rfl

theorem Describes.attributeNames_eq (h : group.Describes model b) :
    b.attributeNames = group.attributeNames := by
  cases h with
  | keyValue _ _ _ _ hnames => exact hnames
  | table _ _ _ _ hnames => exact hnames

theorem ofName?_eq_none_iff {name : String} :
    KeyValueType.ofName? name = none ↔ ¬(name = "string" ∨ name = "text") := by
  fun_cases KeyValueType.ofName? name <;> simp_all

theorem name_of_ofName? {name : String} {type : KeyValueType}
    (h : KeyValueType.ofName? name = some type) : type.name = name := by
  rw [KeyValueType.ofName?.eq_def] at h
  split at h
  · rw [← Option.some_inj.mp h]
    rfl
  · rw [← Option.some_inj.mp h]
    rfl
  · exact absurd h (Option.some_ne_none _).symm

/-- A group of a known type has a backend. -/
theorem exists_backend (h : group.HasKnownType) (model : Model) (id : BackendId) :
    ∃ b, group.backend model id = .ok b ∧ group.Describes model b := by
  cases group with
  | table settings => exact ⟨_, rfl, .table rfl rfl rfl rfl rfl⟩
  | keyValue settings =>
    cases htype : KeyValueType.ofName? settings.typeName with
    | none => exact absurd h (ofName?_eq_none_iff.mp htype)
    | some type =>
      refine ⟨_, by rw [backend, htype], ?_⟩
      exact .keyValue rfl (name_of_ofName? htype) rfl rfl rfl

/-! ### A group fits or offends -/

/-- Attributes that are not listed twice, or the first one that is. -/
theorem apart_or_firstRepeated (earlier names : List String) :
    ((∀ name ∈ names, name ∉ earlier) ∧ names.Nodup) ∨ ∃ name, FirstRepeated earlier names name := by
  cases hclash : LocalizedModel.firstClash (earlier.contains ·) [] names with
  | none =>
    obtain ⟨hfree, hnodup⟩ := LocalizedModel.firstClash_eq_none_iff.mp hclash
    exact .inl ⟨fun name hname => by simpa using (hfree name hname).2, hnodup⟩
  | some name =>
    obtain ⟨before, after, heq, hnone, hname⟩ := LocalizedModel.firstClash_eq_some_iff.mp hclash
    obtain ⟨hfree, hnodup⟩ := LocalizedModel.firstClash_eq_none_iff.mp hnone
    refine .inr ⟨name, before, after, heq, ?_, fun other hother => ?_, hnodup⟩
    · simpa [or_comm] using hname
    · simpa using (hfree other hother).2

/-- **A group fits or has one thing wrong with it.** -/
theorem fits_or_offence (table : String) (earlier : List String) (group : GroupSettings) :
    group.Fits earlier ∨ ∃ error, group.Offence table earlier error := by
  by_cases hknown : group.HasKnownType
  · by_cases hempty : group.attributeNames = []
    · exact .inr ⟨_, .noAttributes hknown hempty⟩
    · obtain ⟨hapart, hnodup⟩ | ⟨name, hrepeated⟩ :=
        apart_or_firstRepeated earlier group.attributeNames
      · exact .inl ⟨hknown, hempty, hapart, hnodup⟩
      · exact .inr ⟨_, .repeated hknown hrepeated⟩
  · cases group with
    | keyValue settings => exact .inr ⟨_, .unknownType hknown⟩
    | table settings => exact absurd trivial hknown

/-- Groups that may stand in one model. -/
structure Together (groups : List GroupSettings) : Prop where
  known : ∀ group ∈ groups, group.HasKnownType
  nonempty : ∀ group ∈ groups, group.attributeNames ≠ []
  nodup : (groups.flatMap attributeNames).Nodup

variable {groups done : List GroupSettings}

instance : Decidable (Together groups) :=
  decidable_of_iff
    ((∀ group ∈ groups, group.HasKnownType) ∧ (∀ group ∈ groups, group.attributeNames ≠ []) ∧
      (groups.flatMap attributeNames).Nodup)
    ⟨fun ⟨known, nonempty, nodup⟩ => ⟨known, nonempty, nodup⟩,
      fun h => ⟨h.known, h.nonempty, h.nodup⟩⟩

theorem together_nil : Together [] where
  known := List.forall_mem_nil _
  nonempty := List.forall_mem_nil _
  nodup := List.nodup_nil

/-- One more group has to fit behind the others. -/
theorem together_append_singleton :
    Together (done ++ [group]) ↔ Together done ∧ group.Fits (done.flatMap attributeNames) := by
  constructor
  · rintro ⟨hknown, hnonempty, hnodup⟩
    rw [List.forall_mem_append, List.forall_mem_singleton] at hknown hnonempty
    rw [List.flatMap_append, List.flatMap_singleton, List.nodup_append] at hnodup
    exact ⟨⟨hknown.1, hnonempty.1, hnodup.1⟩, hknown.2, hnonempty.2,
      fun name hname hearlier => hnodup.2.2 name hearlier name hname rfl, hnodup.2.1⟩
  · rintro ⟨⟨hknown, hnonempty, hnodup⟩, hfits⟩
    refine ⟨?_, ?_, ?_⟩
    · exact List.forall_mem_append.mpr ⟨hknown, List.forall_mem_singleton.mpr hfits.known⟩
    · exact List.forall_mem_append.mpr ⟨hnonempty, List.forall_mem_singleton.mpr hfits.nonempty⟩
    · rw [List.flatMap_append, List.flatMap_singleton, List.nodup_append]
      refine ⟨hnodup, hfits.nodup, fun name hearlier other hother heq => ?_⟩
      exact hfits.apart other hother (heq ▸ hearlier)

theorem Together.of_append {later : List GroupSettings} (h : Together (done ++ later)) :
    Together done where
  known := (List.forall_mem_append.mp h.known).1
  nonempty := (List.forall_mem_append.mp h.nonempty).1
  nodup := by
    have hnodup := h.nodup
    rw [List.flatMap_append] at hnodup
    exact hnodup.of_append_left

/-- Groups may stand in one model, or a first one of them offends. -/
theorem together_or_offence (table : String) (hdone : Together done) (groups : List GroupSettings) :
    Together (done ++ groups) ∨ ∃ before group after error, groups = before ++ group :: after ∧
      Together (done ++ before) ∧
      group.Offence table ((done ++ before).flatMap attributeNames) error := by
  induction groups generalizing done with
  | nil => exact .inl (by rwa [List.append_nil])
  | cons group rest ih =>
    obtain hfits | ⟨error, hoffence⟩ :=
      fits_or_offence table (done.flatMap attributeNames) group
    · have hnext := ih (together_append_singleton.mpr ⟨hdone, hfits⟩)
      rw [List.append_assoc] at hnext
      refine hnext.imp_right ?_
      rintro ⟨before, other, after, error, rfl, hbefore, hoffence⟩
      rw [List.append_assoc] at hbefore hoffence
      exact ⟨group :: before, other, after, error, rfl, hbefore, hoffence⟩
    · exact .inr ⟨[], group, rest, error, rfl, by rwa [List.append_nil],
        by rwa [List.append_nil]⟩

end GroupSettings

/-! ## Attaching the backend of a group -/

namespace LocalizedModel

variable {t : LocalizedModel} {done groups : List GroupSettings} {group : GroupSettings}
  {error : ConfigurationError}

/-- What the backends of groups keep is what the groups list. -/
theorem exists_keeps_iff {backends : List Backend} {model : Model}
    (h : List.Forall₂ (GroupSettings.Describes model) done backends) {name : String} :
    (∃ b ∈ backends, b.keeps name = true) ↔ name ∈ done.flatMap GroupSettings.attributeNames := by
  induction h with
  | nil => simp
  | cons hgroup _ ih =>
    simp only [List.mem_cons, exists_eq_or_imp, ih]
    rw [List.flatMap_cons, List.mem_append, Backend.keeps, List.contains_iff_mem,
      hgroup.attributeNames_eq]

/-- A group that fits gets its backend. -/
theorem attach_of_fits (hdone : List.Forall₂ (GroupSettings.Describes t.model) done t.backends)
    (h : group.Fits (done.flatMap GroupSettings.attributeNames)) (id : BackendId) :
    ∃ b, group.backend t.model id >>= t.withBackend
        = .ok { t with backends := t.backends ++ [b] } ∧ group.Describes t.model b := by
  obtain ⟨b, hb, hdescribes⟩ := GroupSettings.exists_backend h.known t.model id
  refine ⟨b, bind_eq_ok.mpr ⟨b, hb, withBackend_eq_ok.mpr ?_⟩, hdescribes⟩
  rw [hdescribes.attributeNames_eq]
  refine ⟨hdescribes.model_eq, h.nonempty, h.nodup, fun name hname other hother => ?_, rfl⟩
  rw [Bool.eq_false_iff]
  intro hkeeps
  exact h.apart name hname ((exists_keeps_iff hdone).mp ⟨other, hother, hkeeps⟩)

/-- A group that offends gives the error about it. -/
theorem attach_of_offence (hdone : List.Forall₂ (GroupSettings.Describes t.model) done t.backends)
    (h : group.Offence t.model.table (done.flatMap GroupSettings.attributeNames) error)
    (id : BackendId) : group.backend t.model id >>= t.withBackend = .error error := by
  cases h with
  | unknownType htype =>
    rw [GroupSettings.backend, GroupSettings.ofName?_eq_none_iff.mpr htype]
    rfl
  | noAttributes hknown hempty =>
    obtain ⟨b, hb, hdescribes⟩ := GroupSettings.exists_backend hknown t.model id
    rw [hb]
    change t.withBackend b = _
    rw [withBackend, if_neg (not_not.mpr hdescribes.model_eq), hdescribes.attributeNames_eq, hempty,
      hdescribes.name_eq]
    rfl
  | repeated hknown hrepeated =>
    obtain ⟨b, hb, hdescribes⟩ := GroupSettings.exists_backend hknown t.model id
    obtain ⟨before, after, heq, hname, hfree, hnodup⟩ := hrepeated
    have htaken : ∀ {name : String}, (t.backendFor name).isSome = true ↔
        name ∈ done.flatMap GroupSettings.attributeNames := fun {name} =>
      backendFor_isSome.trans (exists_keeps_iff hdone)
    have hclash : firstClash (fun name => (t.backendFor name).isSome) [] b.attributeNames
        = some _ := firstClash_eq_some_iff.mpr ⟨before, after,
          hdescribes.attributeNames_eq.trans heq,
          firstClash_eq_none_iff.mpr ⟨fun other hother =>
            ⟨List.not_mem_nil, Bool.eq_false_iff.mpr fun h => hfree other hother (htaken.mp h)⟩,
            hnodup⟩,
          hname.elim (fun h => .inr (.inr (htaken.mpr h))) .inl⟩
    have hempty : ¬b.attributeNames.isEmpty = true := by
      rw [hdescribes.attributeNames_eq, heq]
      simp
    rw [hb]
    change t.withBackend b = _
    rw [withBackend, if_neg (not_not.mpr hdescribes.model_eq), if_neg hempty, hclash]

/-- Attaches the backends of numbered groups, one after the other. -/
def attachGroups (model : Model) (first : Nat) (t : LocalizedModel)
    (groups : List (GroupSettings × Nat)) : Except ConfigurationError LocalizedModel :=
  groups.foldlM (fun built (group, index) => do
    built.withBackend (← group.backend model ⟨first + index⟩)) t

/-- Groups that may stand in one model behind others get their backends behind those of the
others. -/
theorem attachGroups_behind
    (hdone : List.Forall₂ (GroupSettings.Describes t.model) done t.backends)
    (h : GroupSettings.Together (done ++ groups)) (first number : Nat) :
    ∃ t', attachGroups t.model first t (groups.zipIdx number) = .ok t' ∧ t'.model = t.model ∧
      List.Forall₂ (GroupSettings.Describes t.model) (done ++ groups) t'.backends := by
  induction groups generalizing t done number with
  | nil => exact ⟨t, rfl, rfl, by rwa [List.append_nil]⟩
  | cons group rest ih =>
    rw [List.append_cons] at h ⊢
    obtain ⟨-, hfits⟩ := GroupSettings.together_append_singleton.mp h.of_append
    obtain ⟨b, hattach, hdescribes⟩ := attach_of_fits hdone hfits ⟨first + number⟩
    have hnext : List.Forall₂ (GroupSettings.Describes t.model) (done ++ [group])
        (t.backends ++ [b]) := List.rel_append hdone (.cons hdescribes .nil)
    obtain ⟨t', hrest, hmodel, hall⟩ :=
      ih (t := { t with backends := t.backends ++ [b] }) hnext h (number + 1)
    refine ⟨t', ?_, hmodel, hall⟩
    rw [List.zipIdx_cons, attachGroups, List.foldlM_cons]
    exact bind_eq_ok.mpr ⟨_, hattach, hrest⟩

/-- Groups that may stand in one model all get their backends. -/
theorem attachGroups_of_together (h : GroupSettings.Together groups) (model : Model) (first : Nat) :
    ∃ t, attachGroups model first { model := model } groups.zipIdx = .ok t ∧ t.model = model ∧
      List.Forall₂ (GroupSettings.Describes model) groups t.backends := by
  have hnone : List.Forall₂ (GroupSettings.Describes model) [] [] := .nil
  exact attachGroups_behind (t := { model := model }) hnone h first 0

/-- The first group that offends gives the error. -/
theorem attachGroups_of_offence {model : Model} {before after : List GroupSettings}
    (hbefore : GroupSettings.Together before)
    (h : group.Offence model.table (before.flatMap GroupSettings.attributeNames) error)
    (first : Nat) :
    attachGroups model first { model := model } (before ++ group :: after).zipIdx
      = .error error := by
  obtain ⟨t, ht, rfl, hall⟩ := attachGroups_of_together hbefore model first
  have hattach := attach_of_offence hall h ⟨first + (0 + before.length)⟩
  rw [attachGroups] at ht
  rw [attachGroups, List.zipIdx_append, List.foldlM_append, ht, List.zipIdx_cons]
  -- What is left of the fold starts at `t` with the group that offends.
  change (_ >>= t.withBackend) >>= _ = _
  rw [hattach]
  rfl

end LocalizedModel

/-! ## Models -/

namespace ModelSettings

/-- The model has groups, and they may stand together. -/
structure Consistent (settings : ModelSettings) : Prop where
  groups_ne_nil : settings.groups ≠ []
  together : GroupSettings.Together settings.groups

/-- What is wrong with a model: it has no groups, or a first one of them does not fit behind those
before it. -/
inductive Offence (settings : ModelSettings) (table : String) : ConfigurationError → Prop
  | noBackends : settings.groups = [] → Offence settings table (.noBackends table)
  | group {before after : List GroupSettings} {group : GroupSettings} {error : ConfigurationError} :
      settings.groups = before ++ group :: after → GroupSettings.Together before →
      group.Offence table (before.flatMap GroupSettings.attributeNames) error →
      Offence settings table error

/-- `t` is the model over a table that is declared: its backends are the groups, in their order. -/
structure Describes (settings : ModelSettings) (table : String) (t : LocalizedModel) : Prop where
  model_eq : t.model = settings.model table
  backends : List.Forall₂ (GroupSettings.Describes t.model) settings.groups t.backends

variable {settings : ModelSettings} {table : String} {error : ConfigurationError}

instance : Decidable settings.Consistent :=
  decidable_of_iff (settings.groups ≠ [] ∧ GroupSettings.Together settings.groups)
    ⟨fun ⟨groups_ne_nil, together⟩ => ⟨groups_ne_nil, together⟩,
      fun h => ⟨h.groups_ne_nil, h.together⟩⟩

theorem consistent_or_offence (settings : ModelSettings) (table : String) :
    settings.Consistent ∨ ∃ error, settings.Offence table error := by
  by_cases hempty : settings.groups = []
  · exact .inr ⟨_, .noBackends hempty⟩
  · obtain htogether | ⟨before, group, after, error, hgroups, hbefore, hoffence⟩ :=
      GroupSettings.together_or_offence table GroupSettings.together_nil settings.groups
    · exact .inl ⟨hempty, htogether⟩
    · exact .inr ⟨error, .group hgroups hbefore hoffence⟩

theorem build_eq (h : settings.groups ≠ []) (table : String) (first : Nat) :
    settings.build table first = LocalizedModel.attachGroups (settings.model table) first
      { model := settings.model table } settings.groups.zipIdx := by
  have hempty : ¬settings.groups.isEmpty = true := by rwa [List.isEmpty_iff]
  rw [build, if_neg hempty, LocalizedModel.attachGroups]

/-- **A consistent model is built as it is declared.** -/
theorem build_of_consistent (h : settings.Consistent) (table : String) (first : Nat) :
    ∃ t, settings.build table first = .ok t ∧ settings.Describes table t := by
  obtain ⟨t, ht, hmodel, hall⟩ :=
    LocalizedModel.attachGroups_of_together h.together (settings.model table) first
  rw [build_eq h.groups_ne_nil]
  exact ⟨t, ht, hmodel, by rwa [hmodel]⟩

/-- **The error is about what is wrong first.** -/
theorem build_of_offence (h : settings.Offence table error) (first : Nat) :
    settings.build table first = .error error := by
  cases h with
  | noBackends hempty =>
    rw [build, if_pos (List.isEmpty_iff.mpr hempty)]
  | @group before after group error hgroups hbefore hoffence =>
    rw [build_eq (by rw [hgroups]; simp), hgroups]
    exact LocalizedModel.attachGroups_of_offence hbefore hoffence first

end ModelSettings

/-! ## All models -/

namespace Settings

/-- Every model that is declared is consistent. -/
def Consistent (settings : Settings) : Prop :=
  ∀ declared ∈ settings.models.entries, declared.2.Consistent

/-- What is wrong with the first model, in the order of the tables, that is not consistent. -/
def Offence (settings : Settings) (error : ConfigurationError) : Prop :=
  ∃ before table model after, settings.models.entries = before ++ (table, model) :: after ∧
    (∀ declared ∈ before, declared.2.Consistent) ∧ model.Offence table error

/-- A model that was built, under the table of the one that is declared. -/
structure BuiltAs (declared : String × ModelSettings) (built : String × LocalizedModel) : Prop where
  table_eq : built.1 = declared.1
  describes : declared.2.Describes declared.1 built.2

/-- A registry has the models that are declared, and no others. -/
def Describes (settings : Settings) (registry : Registry) : Prop :=
  List.Forall₂ BuiltAs settings.models.entries registry.byTable.entries

variable {settings : Settings} {registry : Registry} {error : ConfigurationError}

instance : Decidable settings.Consistent :=
  inferInstanceAs (Decidable (∀ declared ∈ settings.models.entries, declared.2.Consistent))

theorem consistent_or_offence (settings : Settings) :
    settings.Consistent ∨ ∃ error, settings.Offence error := by
  suffices h : ∀ models : List (String × ModelSettings),
      (∀ declared ∈ models, declared.2.Consistent) ∨ ∃ error before table model after,
        models = before ++ (table, model) :: after ∧
          (∀ declared ∈ before, declared.2.Consistent) ∧ model.Offence table error from h _
  intro models
  induction models with
  | nil => exact .inl (List.forall_mem_nil _)
  | cons declared rest ih =>
    obtain ⟨table, model⟩ := declared
    obtain hfirst | ⟨error, hoffence⟩ := model.consistent_or_offence table
    · refine ih.imp (fun hrest => List.forall_mem_cons.mpr ⟨hfirst, hrest⟩) ?_
      rintro ⟨error, before, other, later, after, rfl, hbefore, hoffence⟩
      exact ⟨error, (table, model) :: before, other, later, after, rfl,
        List.forall_mem_cons.mpr ⟨hfirst, hbefore⟩, hoffence⟩
    · exact .inr ⟨error, [], table, model, rest, rfl, List.forall_mem_nil _, hoffence⟩

/-- The entries of a map stand under the tables that are declared. -/
theorem forall_lt_of_builtAs {models : List (String × ModelSettings)}
    {entries : List (String × LocalizedModel)} (h : List.Forall₂ BuiltAs models entries)
    {table : String} (hlt : ∀ declared ∈ models, declared.1 < table) :
    ∀ entry ∈ entries, entry.1 < table := by
  induction h with
  | nil => exact List.forall_mem_nil _
  | cons hbuilt _ ih =>
    obtain ⟨hfirst, hrest⟩ := List.forall_mem_cons.mp hlt
    exact List.forall_mem_cons.mpr ⟨hbuilt.table_eq ▸ hfirst, ih hrest⟩

/-- Consistent models are added behind those that are there. -/
theorem addModels_of_consistent {done models : List (String × ModelSettings)}
    (hdone : List.Forall₂ BuiltAs done registry.byTable.entries)
    (hsorted : (done ++ models).Pairwise fun a b => a.1 < b.1)
    (h : ∀ declared ∈ models, declared.2.Consistent) (first : Nat) :
    ∃ registry', addModels registry first models = .ok registry' ∧
      List.Forall₂ BuiltAs (done ++ models) registry'.byTable.entries := by
  induction models generalizing registry done first with
  | nil => exact ⟨registry, rfl, by rwa [List.append_nil]⟩
  | cons declared rest ih =>
    obtain ⟨table, model⟩ := declared
    obtain ⟨hmodel, hrest⟩ := List.forall_mem_cons.mp h
    obtain ⟨t, ht, hdescribes⟩ := ModelSettings.build_of_consistent hmodel table first
    have htable : t.model.table = table := by
      rw [hdescribes.model_eq]
      rfl
    have hlt : ∀ earlier ∈ done, earlier.1 < table := fun earlier hearlier =>
      (List.pairwise_append.mp hsorted).2.2 earlier hearlier _ (List.mem_cons_self ..)
    -- The tables increase, so this one is added behind those that are there.
    have hentries : (registry.insert t).byTable.entries
        = registry.byTable.entries ++ [(table, t)] := by
      rw [← htable]
      exact NameMap.put_of_forall_lt (forall_lt_of_builtAs hdone (htable ▸ hlt))
    have hnext : List.Forall₂ BuiltAs (done ++ [(table, model)])
        (registry.insert t).byTable.entries := by
      rw [hentries]
      exact List.rel_append hdone (.cons ⟨rfl, hdescribes⟩ .nil)
    rw [List.append_cons] at hsorted ⊢
    obtain ⟨registry', hregistry', hall⟩ :=
      ih hnext hsorted hrest (first + model.groups.length)
    refine ⟨registry', ?_, hall⟩
    rw [addModels]
    exact bind_eq_ok.mpr ⟨t, ht, hregistry'⟩

/-- The first model that is not consistent gives the error. -/
theorem addModels_of_offence {before after : List (String × ModelSettings)} {table : String}
    {model : ModelSettings} (hbefore : ∀ declared ∈ before, declared.2.Consistent)
    (h : model.Offence table error) (registry : Registry) (first : Nat) :
    addModels registry first (before ++ (table, model) :: after) = .error error := by
  induction before generalizing registry first with
  | nil =>
    rw [List.nil_append, addModels, ModelSettings.build_of_offence h]
    rfl
  | cons declared rest ih =>
    obtain ⟨hfirst, hrest⟩ := List.forall_mem_cons.mp hbefore
    obtain ⟨t, ht, -⟩ := ModelSettings.build_of_consistent hfirst declared.1 first
    rw [List.cons_append, addModels, ht]
    exact ih hrest (registry.insert t) _

theorem registry_of_consistent (h : settings.Consistent) :
    ∃ registry, settings.registry = .ok registry ∧ settings.Describes registry := by
  have hnone : List.Forall₂ BuiltAs [] ({} : Registry).byTable.entries := .nil
  exact addModels_of_consistent hnone settings.models.sorted h 0

theorem registry_of_offence (h : settings.Offence error) : settings.registry = .error error := by
  obtain ⟨before, table, model, after, heq, hbefore, hmodel⟩ := h
  rw [Settings.registry, heq]
  exact addModels_of_offence hbefore hmodel {} 0

/-- **Settings are accepted exactly if they are consistent.** Then the models have the backends that
are declared; otherwise the error is about what is wrong first. -/
theorem registry_accepts_consistent (settings : Settings) :
    ((∃ registry, settings.registry = .ok registry) ↔ settings.Consistent) ∧
    (∀ registry, settings.registry = .ok registry → settings.Describes registry) ∧
    ∀ error, settings.registry = .error error ↔ settings.Offence error := by
  obtain hconsistent | ⟨error, hoffence⟩ := settings.consistent_or_offence
  · obtain ⟨registry, hregistry, hdescribes⟩ := registry_of_consistent hconsistent
    refine ⟨iff_of_true ⟨registry, hregistry⟩ hconsistent, fun other hother => ?_, fun error => ?_⟩
    · rwa [← Except.ok.inj (hregistry.symm.trans hother)]
    · refine ⟨fun herror => ?_, registry_of_offence⟩
      cases hregistry.symm.trans herror
  · have herror := registry_of_offence hoffence
    refine ⟨⟨?_, fun hconsistent => ?_⟩, ?_, fun other => ⟨fun hother => ?_, registry_of_offence⟩⟩
    · rintro ⟨registry, hregistry⟩
      cases herror.symm.trans hregistry
    · obtain ⟨registry, hregistry, -⟩ := registry_of_consistent hconsistent
      cases herror.symm.trans hregistry
    · intro registry hregistry
      cases herror.symm.trans hregistry
    · rwa [← Except.error.inj (herror.symm.trans hother)]

/-- Comments with a text, and posts whose title stands in two groups. -/
def titledTwice : Settings where
  models := {
    entries := [
      ("comments", { table := some { attributeNames := ["text"] } }),
      ("posts", { keyValue := [{ typeName := "string", attributeNames := ["title"] }]
                  table := some { attributeNames := ["body", "title"] } })]
    sorted := by decide }

/-- The comments are accepted, so the error is about the title of the posts. -/
theorem registry_titledTwice :
    titledTwice.registry = .error (.duplicateAttribute "posts" "title") ∧
      ¬titledTwice.Consistent := by
  obtain ⟨haccepted, -, herror⟩ := registry_accepts_consistent titledTwice
  have htitle : GroupSettings.FirstRepeated ["title"] ["body", "title"] "title" :=
    ⟨["body"], [], rfl, .inl (by decide), by decide, by decide⟩
  have hgroup : (GroupSettings.table { attributeNames := ["body", "title"] }).Offence "posts"
      ["title"] (.duplicateAttribute "posts" "title") := .repeated trivial htitle
  have hposts : titledTwice.registry = .error (.duplicateAttribute "posts" "title") := by
    refine (herror _).mpr ⟨[_], "posts", _, [], rfl, ?_, ?_⟩
    · decide
    · exact .group (rfl : _ = [_] ++ _ :: []) (by decide) hgroup
  refine ⟨hposts, fun hconsistent => ?_⟩
  obtain ⟨registry, hregistry⟩ := haccepted.mpr hconsistent
  cases hposts.symm.trans hregistry

end Settings

end LocalizedQuery
