import LocalizedQuery.Configuration.Build
import LocalizedQuery.Proofs.Aliases
import LocalizedQuery.Proofs.OuterJoins
import Mathlib.Data.List.Sigma

/-!
# Models built from settings

Settings give a model its backends group by group: those in key-value tables first, then the one
that has a table of its own. Each group is numbered, so no two backends have one identity, and the
groups of a model that was built never share an attribute (`ModelSettings.Built`).

Where the settings leave the names of the tables alone, the names of the joins cannot clash. In a
locale a key-value backend names its joins after the model, the attribute, the locale and the type,
the other backend after the model and the locale. Two attributes of one type are told apart by
themselves, two types by the end of the name, and the name without an attribute is always shorter.

## Main results

* `ModelSettings.built_of_build` — what is built, group by group
* `ModelSettings.nodup_aliases_build` — joins in default tables have different aliases
-/

namespace LocalizedQuery

/-! ## Group by group -/

namespace GroupSettings

variable {group : GroupSettings} {model : Model} {id : BackendId} {b : Backend}

theorem id_backend (h : group.backend model id = .ok b) : b.id = id := by
  cases group with
  | table settings =>
    rw [← Except.ok.inj h]
    rfl
  | keyValue settings =>
    rw [backend] at h
    cases htype : KeyValueType.ofName? settings.typeName with
    | none => simp [htype] at h
    | some type =>
      rw [htype] at h
      rw [← Except.ok.inj h]
      rfl

/-- Only a key-value group gives a key-value backend. -/
theorem keyValue_of_backend {settings : KeyValueSettings}
    (h : (GroupSettings.keyValue settings).backend model id = .ok b) : ∃ k, b = .keyValue k := by
  rw [backend] at h
  cases htype : KeyValueType.ofName? settings.typeName with
  | none => simp [htype] at h
  | some type =>
    rw [htype] at h
    exact ⟨_, (Except.ok.inj h).symm⟩

end GroupSettings

namespace ModelSettings

variable {settings : ModelSettings} {model : Model} {first : Nat} {table : String}
  {t : LocalizedModel}

/-- How two numbered groups of a model follow each other: only a key-value group has others behind
it, and no number is used again. -/
def Precedes (numbered later : GroupSettings × Nat) : Prop :=
  numbered.2 ≠ later.2 ∧ ∃ settings, numbered.1 = .keyValue settings

/-- What holds of a model that was built from numbered groups. -/
structure Built (model : Model) (first : Nat) (groups : List (GroupSettings × Nat))
    (t : LocalizedModel) : Prop where
  attached : t.Attached
  model_eq : t.model = model
  origin : ∀ b ∈ t.backends, ∃ numbered ∈ groups,
    numbered.1.backend model ⟨first + numbered.2⟩ = .ok b
  /-- Only a key-value backend has others behind it. -/
  keyValue : t.backends.Pairwise fun b _ => ∃ k, b = .keyValue k

theorem built_nil (model : Model) (first : Nat) : Built model first [] { model := model } where
  attached := .start model
  model_eq := rfl
  origin := List.forall_mem_nil _
  keyValue := List.Pairwise.nil

/-- What one more group preserves. -/
theorem Built.attach {done : List (GroupSettings × Nat)} {numbered : GroupSettings × Nat}
    {b : Backend} {t' : LocalizedModel} (h : Built model first done t)
    (hlater : ∀ earlier ∈ done, Precedes earlier numbered)
    (hb : numbered.1.backend model ⟨first + numbered.2⟩ = .ok b)
    (hattach : t.withBackend b = .ok t') :
    Built model first (done ++ [numbered]) t' := by
  obtain ⟨-, -, -, -, rfl⟩ := LocalizedModel.withBackend_eq_ok.mp hattach
  exact {
    attached := by
      refine h.attached.attach hattach fun other hother hid => ?_
      -- The number of the group is new, so no backend has its identity.
      obtain ⟨earlier, hearlier, hother⟩ := h.origin other hother
      rw [GroupSettings.id_backend hother, GroupSettings.id_backend hb, BackendId.mk.injEq,
        Nat.add_left_cancel_iff] at hid
      exact absurd hid (hlater earlier hearlier).1
    model_eq := h.model_eq
    origin := by
      refine List.forall_mem_append.mpr ⟨fun other hother => ?_, List.forall_mem_singleton.mpr ?_⟩
      · obtain ⟨earlier, hearlier, hother⟩ := h.origin other hother
        exact ⟨earlier, List.mem_append_left _ hearlier, hother⟩
      · exact ⟨numbered, List.mem_append_right _ (List.mem_singleton_self _), hb⟩
    keyValue := by
      refine List.pairwise_append.mpr
        ⟨h.keyValue, List.pairwise_singleton .., fun other hother _ _ => ?_⟩
      obtain ⟨earlier, hearlier, hother⟩ := h.origin other hother
      obtain ⟨-, settings, hkeyValue⟩ := hlater earlier hearlier
      rw [hkeyValue] at hother
      exact GroupSettings.keyValue_of_backend hother }

theorem pairwise_groups (settings : ModelSettings) :
    settings.groups.zipIdx.Pairwise Precedes := by
  have hnumbers : settings.groups.zipIdx.Pairwise fun numbered later => numbered.2 ≠ later.2 :=
    List.pairwise_map.mp (List.nodup_zipIdx_map_snd settings.groups)
  have hgroups : settings.groups.Pairwise fun group _ =>
      ∃ settings, group = .keyValue settings := by
    refine List.pairwise_append.mpr ⟨?_, ?_, ?_⟩
    · exact List.pairwise_map.mpr (List.pairwise_of_forall fun group _ => ⟨group, rfl⟩)
    · cases settings.table with
      | none => exact List.Pairwise.nil
      | some group => exact List.pairwise_singleton ..
    · intro group hgroup _ _
      obtain ⟨keyValue, -, rfl⟩ := List.mem_map.mp hgroup
      exact ⟨keyValue, rfl⟩
  rw [← List.zipIdx_map_fst 0 settings.groups, List.pairwise_map] at hgroups
  exact hnumbers.and hgroups

/-- **What is built, group by group.** -/
theorem built_of_build (h : settings.build table first = .ok t) :
    Built (settings.model table) first settings.groups.zipIdx t := by
  rw [build] at h
  by_cases hempty : settings.groups.isEmpty = true
  · simp [hempty] at h
  · simp only [hempty, Bool.false_eq_true, if_false] at h
    refine foldlM_invariant
      (P := fun done t => done.Pairwise Precedes → Built (settings.model table) first done t)
      ?_ (fun _ => built_nil _ first) h (pairwise_groups settings)
    rintro done numbered - t t' hdone hstep hpairwise
    obtain ⟨hbefore, -, hlater⟩ := List.pairwise_append.mp hpairwise
    obtain ⟨b, hb, hattach⟩ := bind_eq_ok.mp hstep
    exact (hdone hbefore).attach
      (fun earlier hearlier => hlater earlier hearlier numbered (List.mem_singleton_self _))
      hb hattach

end ModelSettings

/-! ## Default tables -/

/-- A backend in a table that is named by default. -/
def Backend.InDefaultTable : Backend → Prop
  | .keyValue b => b.table = b.type.defaultTable
  | .table b => b.table = b.model.singular ++ "_translations"

/-- No group of a model names its table. -/
def ModelSettings.LeavesTables (settings : ModelSettings) : Prop :=
  (∀ group ∈ settings.keyValue, group.table = none) ∧ ∀ group ∈ settings.table, group.table = none

theorem ModelSettings.LeavesTables.inDefaultTable {settings : ModelSettings}
    (h : settings.LeavesTables) {group : GroupSettings} (hgroup : group ∈ settings.groups)
    {model : Model} {id : BackendId} {b : Backend} (hb : group.backend model id = .ok b) :
    b.InDefaultTable := by
  rcases List.mem_append.mp hgroup with hmem | hmem
  · obtain ⟨keyValue, hkeyValue, rfl⟩ := List.mem_map.mp hmem
    rw [GroupSettings.backend] at hb
    cases htype : KeyValueType.ofName? keyValue.typeName with
    | none => simp [htype] at hb
    | some type =>
      rw [htype] at hb
      rw [← Except.ok.inj hb, Backend.InDefaultTable, h.1 keyValue hkeyValue, Option.getD_none]
  · obtain ⟨tableGroup, htable, rfl⟩ := List.mem_map.mp hmem
    rw [← Except.ok.inj hb, Backend.InDefaultTable,
      h.2 tableGroup (Option.mem_toList.mp htable), Option.getD_none]

/-- Two types of key-value tables end differently. -/
theorem KeyValueType.eq_of_append_name_eq {type type' : KeyValueType} {before before' : String}
    (h : before ++ type.name = before' ++ type'.name) : type = type' := by
  have hlast : (before ++ type.name).toList.getLast? = (before' ++ type'.name).toList.getLast? :=
    congrArg (fun text => text.toList.getLast?) h
  cases type <;> cases type' <;> simp [KeyValueType.name] at hlast ⊢

namespace KeyValueBackend

variable {b b' : KeyValueBackend} {name name' : String} {locale : Locale}

theorem aliasName_of_inDefaultTable (h : (Backend.keyValue b).InDefaultTable) :
    b.aliasName name locale
      = (b.model.singular ++ "_" ++ (name ++ ("_" ++ locale.normalized)) ++ "_" ++ b.type.name)
        ++ "_translations" := by
  have htable : b.table = b.type.defaultTable := h
  simp [aliasName, htable, KeyValueType.defaultTable, String.append_assoc, toString]

/-- In default tables an alias tells the attribute and the type. -/
theorem eq_of_aliasName_eq (h : (Backend.keyValue b).InDefaultTable)
    (h' : (Backend.keyValue b').InDefaultTable) (hmodel : b.model = b'.model)
    (heq : b.aliasName name locale = b'.aliasName name' locale) :
    b.type = b'.type ∧ name = name' := by
  rw [aliasName_of_inDefaultTable h, aliasName_of_inDefaultTable h', String.append_left_inj] at heq
  have htype : b.type = b'.type := KeyValueType.eq_of_append_name_eq heq
  rw [htype, hmodel, String.append_left_inj, String.append_left_inj, String.append_right_inj,
    String.append_left_inj] at heq
  exact ⟨htype, heq⟩

/-- The alias of an attribute is longer than one that names no attribute. -/
theorem aliasName_ne_table {b' : TableBackend} (h : (Backend.keyValue b).InDefaultTable)
    (h' : (Backend.table b').InDefaultTable) (hmodel : b.model = b'.model) :
    b.aliasName name locale ≠ b'.aliasName locale := by
  intro heq
  have htable : b'.table = b'.model.singular ++ "_translations" := h'
  rw [aliasName_of_inDefaultTable h, TableBackend.aliasName, htable, ← hmodel] at heq
  have hlength := congrArg String.length heq
  have hunderscore : "_".length = 1 := rfl
  simp [toString, hunderscore] at hlength
  omega

end KeyValueBackend

/-- Backends of one model that are in default tables and keep different attributes join under
different aliases, if the first is a key-value backend. -/
theorem Backend.disjoint_aliases {b : KeyValueBackend} {b' : Backend} {locale : Locale}
    (h : (Backend.keyValue b).InDefaultTable) (h' : b'.InDefaultTable) (hmodel : b.model = b'.model)
    (hapart : b.attributeNames.Disjoint b'.attributeNames) :
    (((Backend.keyValue b).targets locale).map JoinTarget.aliasName).Disjoint
      ((b'.targets locale).map JoinTarget.aliasName) := by
  intro joined hjoined hjoined'
  obtain ⟨_, hmem, rfl⟩ := List.mem_map.mp hjoined
  obtain ⟨name, hname, rfl⟩ := List.mem_map.mp hmem
  obtain ⟨target, htarget, heq⟩ := List.mem_map.mp hjoined'
  cases b' with
  | keyValue b' =>
    obtain ⟨name', hname', rfl⟩ := List.mem_map.mp htarget
    have hsame : name = name' := (KeyValueBackend.eq_of_aliasName_eq h h' hmodel heq.symm).2
    exact absurd hname' (hsame ▸ hapart hname)
  | table b' =>
    rw [List.mem_singleton.mp htarget] at heq
    exact KeyValueBackend.aliasName_ne_table h h' hmodel heq.symm

/-- The joins of a backend in a locale have different aliases. -/
theorem Backend.nodup_aliases {b : Backend} (hnodup : b.attributeNames.Nodup) (locale : Locale) :
    ((b.targets locale).map JoinTarget.aliasName).Nodup := by
  cases b with
  | keyValue b =>
    rw [Backend.targets, List.map_map]
    refine hnodup.map fun name name' heq => ?_
    have hnames := KeyValueBackend.aliasName_eq_iff.mp heq
    rwa [String.append_left_inj, String.append_left_inj] at hnames
  | table b => exact List.nodup_singleton _

/-- **Joins in default tables have different aliases.** -/
theorem ModelSettings.nodup_aliases_build {settings : ModelSettings} {table : String} {first : Nat}
    {t : LocalizedModel} (hleaves : settings.LeavesTables)
    (h : settings.build table first = .ok t) (locale : Locale) :
    ((t.targets locale).map JoinTarget.aliasName).Nodup := by
  have hbuilt := built_of_build h
  have hcompatible := hbuilt.attached.compatible
  have hdefault : ∀ b ∈ t.backends, b.InDefaultTable := by
    intro b hb
    obtain ⟨numbered, hnumbered, hbackend⟩ := hbuilt.origin b hb
    exact hleaves.inDefaultTable (List.fst_mem_of_mem_zipIdx hnumbered) hbackend
  rw [LocalizedModel.targets, List.map_flatMap, List.nodup_flatMap]
  refine ⟨fun b hb => Backend.nodup_aliases (hcompatible.nodup_attributeNames hb) locale, ?_⟩
  refine (hbuilt.keyValue.and hcompatible.pairwise_disjoint).imp_of_mem
    fun {b b'} hb hb' hpair => ?_
  obtain ⟨⟨k, rfl⟩, hapart⟩ := hpair
  have hmodel : k.model = b'.model :=
    (hcompatible.bound _ hb).trans (hcompatible.bound b' hb').symm
  exact Backend.disjoint_aliases (hdefault _ hb) (hdefault b' hb') hmodel hapart

end LocalizedQuery
