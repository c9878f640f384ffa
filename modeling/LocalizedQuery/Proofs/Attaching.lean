import LocalizedQuery.LocalizedModel
import LocalizedQuery.Proofs.Results
import Mathlib.Data.List.Nodup
import Mathlib.Data.List.Pairwise

/-!
# Attaching backends

A backend is refused for what it brings along, seen beside the backends that are there. Whether a
whole list of backends is accepted can be told without attaching any: all of them have to be bound
to the model, each has to list attributes, and no attribute may be listed twice in all of their
lists together (`LocalizedModel.Compatible`). Nothing of this depends on the order, although the
guard looks at one list after the other and stops at the first clash.

## Main results

* `LocalizedModel.withBackend_eq_ok` — when one backend is attached
* `LocalizedModel.attachAll_eq_ok_iff` — when a list of backends is attached
* `LocalizedModel.Compatible.eq_of_keeps` — an attribute has one backend
-/

namespace LocalizedQuery

namespace LocalizedModel

variable {t t' : LocalizedModel} {b b' : Backend}

/-! ## Attaching -/

theorem firstClash_eq_none_iff {taken : String → Bool} {seen names : List String} :
    firstClash taken seen names = none ↔
      (∀ name ∈ names, name ∉ seen ∧ taken name = false) ∧ names.Nodup := by
  induction names generalizing seen with
  | nil => simp [firstClash]
  | cons name rest ih =>
    rw [firstClash]
    by_cases hclash : (seen.contains name || taken name) = true
    · rw [if_pos hclash]
      simp only [Bool.or_eq_true, List.contains_iff_mem] at hclash
      rw [List.forall_mem_cons]
      simp only [reduceCtorEq, false_iff]
      rintro ⟨⟨⟨hseen, htaken⟩, -⟩, -⟩
      rcases hclash with h | h
      · exact absurd h hseen
      · rw [htaken] at h
        exact absurd h Bool.false_ne_true
    · rw [if_neg hclash, ih, List.forall_mem_cons, List.nodup_cons]
      simp only [Bool.or_eq_true, List.contains_iff_mem, not_or, Bool.not_eq_true] at hclash
      simp only [List.mem_cons, not_or]
      constructor
      · rintro ⟨hrest, hnodup⟩
        exact ⟨⟨hclash, fun other hother => ⟨(hrest other hother).1.2, (hrest other hother).2⟩⟩,
          fun hmem => (hrest name hmem).1.1 rfl, hnodup⟩
      · rintro ⟨⟨-, hrest⟩, hnotMem, hnodup⟩
        exact ⟨fun other hother => ⟨⟨fun heq => hnotMem (heq ▸ hother), (hrest other hother).1⟩,
          (hrest other hother).2⟩, hnodup⟩

/-- The first name that clashes is one that clashes behind names that do not. -/
theorem firstClash_eq_some_iff {taken : String → Bool} {seen names : List String} {name : String} :
    firstClash taken seen names = some name ↔ ∃ before after, names = before ++ name :: after ∧
      firstClash taken seen before = none ∧
      (name ∈ before ∨ name ∈ seen ∨ taken name = true) := by
  induction names generalizing seen with
  | nil => simp [firstClash]
  | cons first rest ih =>
    by_cases hclash : (seen.contains first || taken first) = true
    · rw [firstClash, if_pos hclash]
      constructor
      · rintro ⟨rfl⟩
        exact ⟨[], rest, rfl, rfl, .inr (by simpa using hclash)⟩
      · rintro ⟨before, after, heq, hnone, -⟩
        cases before with
        | nil => exact congrArg some (List.cons.inj heq).1
        | cons other before =>
          rw [← (List.cons.inj heq).1, firstClash, if_pos hclash] at hnone
          exact absurd hnone (Option.some_ne_none _)
    · rw [firstClash, if_neg hclash, ih]
      have hseen (before : List String) :
          (name ∈ before ∨ name ∈ first :: seen ∨ taken name = true) ↔
            name ∈ first :: before ∨ name ∈ seen ∨ taken name = true := by
        rw [List.mem_cons, List.mem_cons, or_assoc, or_assoc, or_left_comm]
      constructor
      · rintro ⟨before, after, rfl, hnone, hname⟩
        exact ⟨first :: before, after, rfl, by rwa [firstClash, if_neg hclash],
          (hseen before).mp hname⟩
      · rintro ⟨before, after, heq, hnone, hname⟩
        cases before with
        | nil =>
          rw [← (List.cons.inj heq).1] at hname
          exact absurd (by simpa using hname) hclash
        | cons other before =>
          obtain ⟨rfl, rfl⟩ := List.cons.inj heq
          rw [firstClash, if_neg hclash] at hnone
          exact ⟨before, after, rfl, hnone, (hseen before).mpr hname⟩

theorem backendFor_isSome {name : String} :
    (t.backendFor name).isSome = true ↔ ∃ b ∈ t.backends, b.keeps name = true := by
  simp [backendFor]

/-- When a backend may be attached. -/
theorem withBackend_eq_ok :
    t.withBackend b = .ok t' ↔ b.model = t.model ∧ b.attributeNames ≠ [] ∧
      b.attributeNames.Nodup ∧
      (∀ name ∈ b.attributeNames, ∀ other ∈ t.backends, other.keeps name = false) ∧
      t' = { t with backends := t.backends ++ [b] } := by
  rw [withBackend]
  by_cases hmodel : b.model = t.model
  · by_cases hempty : b.attributeNames = []
    · simp [hmodel, hempty]
    · rw [if_neg (not_not.mpr hmodel), if_neg (by simpa using hempty)]
      cases hclash : firstClash (fun name => (t.backendFor name).isSome) [] b.attributeNames with
      | some name =>
        have hnot := mt firstClash_eq_none_iff.mpr (by rw [hclash]; exact Option.some_ne_none _)
        simp only [reduceCtorEq, false_iff]
        rintro ⟨-, -, hnodup, hfree, -⟩
        refine hnot ⟨fun name hname => ⟨List.not_mem_nil, ?_⟩, hnodup⟩
        rw [Bool.eq_false_iff, Ne, backendFor_isSome]
        rintro ⟨other, hother, hkeeps⟩
        rw [hfree name hname other hother] at hkeeps
        exact absurd hkeeps Bool.false_ne_true
      | none =>
        obtain ⟨hfree, hnodup⟩ := firstClash_eq_none_iff.mp hclash
        have hkeeps : ∀ name ∈ b.attributeNames, ∀ other ∈ t.backends,
            other.keeps name = false := by
          intro name hname other hother
          have hnone := (hfree name hname).2
          rw [Bool.eq_false_iff, Ne, backendFor_isSome] at hnone
          exact Bool.eq_false_iff.mpr fun h => hnone ⟨other, hother, h⟩
        simp only [Except.ok.injEq]
        exact ⟨fun h => ⟨hmodel, hempty, hnodup, hkeeps, h.symm⟩, fun h => h.2.2.2.2.symm⟩
  · simp [hmodel]

/-! ## Backends of one model -/

/-- Backends that one model can have: each is bound to it and lists attributes, and no attribute is
listed twice in all of their lists together. -/
structure Compatible (model : Model) (backends : List Backend) : Prop where
  bound : ∀ b ∈ backends, b.model = model
  nonempty : ∀ b ∈ backends, b.attributeNames ≠ []
  nodup : (backends.flatMap Backend.attributeNames).Nodup

variable {model : Model} {backends backends' : List Backend}

theorem compatible_nil (model : Model) : Compatible model [] where
  bound := List.forall_mem_nil _
  nonempty := List.forall_mem_nil _
  nodup := List.nodup_nil

/-- What one more backend has to bring along. -/
theorem compatible_append_singleton :
    Compatible model (backends ++ [b]) ↔ Compatible model backends ∧ b.model = model ∧
      b.attributeNames ≠ [] ∧ b.attributeNames.Nodup ∧
      ∀ name ∈ b.attributeNames, ∀ other ∈ backends, other.keeps name = false := by
  have hapart : (∀ name ∈ backends.flatMap Backend.attributeNames, ∀ name' ∈ b.attributeNames,
      name ≠ name') ↔ ∀ name ∈ b.attributeNames, ∀ other ∈ backends, other.keeps name = false := by
    simp only [List.mem_flatMap, Backend.keeps, List.contains_eq_mem, decide_eq_false_iff_not]
    constructor
    · intro h name hname other hother hkept
      exact h name ⟨other, hother, hkept⟩ name hname rfl
    · rintro h _ ⟨other, hother, hkept⟩ name hname rfl
      exact h _ hname other hother hkept
  constructor
  · rintro ⟨hbound, hnonempty, hnodup⟩
    rw [List.forall_mem_append, List.forall_mem_singleton] at hbound hnonempty
    rw [List.flatMap_append, List.flatMap_singleton, List.nodup_append, hapart] at hnodup
    exact ⟨⟨hbound.1, hnonempty.1, hnodup.1⟩, hbound.2, hnonempty.2, hnodup.2⟩
  · rintro ⟨⟨hbound, hnonempty, hnodup⟩, hmodel, hlists, hnodup', hfree⟩
    refine ⟨List.forall_mem_append.mpr ⟨hbound, List.forall_mem_singleton.mpr hmodel⟩,
      List.forall_mem_append.mpr ⟨hnonempty, List.forall_mem_singleton.mpr hlists⟩, ?_⟩
    rw [List.flatMap_append, List.flatMap_singleton, List.nodup_append, hapart]
    exact ⟨hnodup, hnodup', hfree⟩

namespace Compatible

/-- **A backend is attached exactly if it is compatible with those that are there.** -/
theorem withBackend_eq_ok_iff (h : Compatible t.model t.backends) :
    t.withBackend b = .ok t' ↔ Compatible t.model (t.backends ++ [b]) ∧
      t' = { t with backends := t.backends ++ [b] } := by
  rw [withBackend_eq_ok, compatible_append_singleton]
  simp only [h, true_and, and_assoc]

/-- No backend lists an attribute twice. -/
theorem nodup_attributeNames (h : Compatible model backends) (hb : b ∈ backends) :
    b.attributeNames.Nodup :=
  (List.nodup_flatMap.mp h.nodup).1 b hb

/-- **Different backends keep different attributes.** -/
theorem pairwise_disjoint (h : Compatible model backends) :
    backends.Pairwise fun b b' => b.attributeNames.Disjoint b'.attributeNames :=
  (List.nodup_flatMap.mp h.nodup).2

/-- **An attribute has one backend.** -/
theorem eq_of_keeps (h : Compatible model backends) (hb : b ∈ backends) (hb' : b' ∈ backends)
    {name : String} (hkeeps : b.keeps name = true) (hkeeps' : b'.keeps name = true) : b = b' := by
  by_contra hne
  have : Std.Symm fun b b' : Backend => b.attributeNames.Disjoint b'.attributeNames :=
    ⟨fun _ _ => List.disjoint_symm⟩
  exact h.pairwise_disjoint.forall hb hb' hne (List.contains_iff_mem.mp hkeeps)
    (List.contains_iff_mem.mp hkeeps')

theorem backendFor_eq_some_iff (h : Compatible t.model t.backends) {name : String} :
    t.backendFor name = some b ↔ b ∈ t.backends ∧ b.keeps name = true := by
  constructor
  · intro h
    exact ⟨List.mem_of_find?_eq_some h, by simpa using List.find?_some h⟩
  · rintro ⟨hb, hkeeps⟩
    obtain ⟨b', hb'⟩ := Option.isSome_iff_exists.mp (backendFor_isSome.mpr ⟨b, hb, hkeeps⟩)
    have hkeeps' : b'.keeps name = true := by
      simpa using List.find?_some hb'
    rw [hb', h.eq_of_keeps (List.mem_of_find?_eq_some hb') hb hkeeps' hkeeps]

theorem of_append {later : List Backend} (h : Compatible model (backends ++ later)) :
    Compatible model backends where
  bound := (List.forall_mem_append.mp h.bound).1
  nonempty := (List.forall_mem_append.mp h.nonempty).1
  nodup := by
    have hnodup := h.nodup
    rw [List.flatMap_append] at hnodup
    exact hnodup.of_append_left

/-- The order plays no part. -/
theorem perm (h : Compatible model backends) (hperm : backends'.Perm backends) :
    Compatible model backends' where
  bound b hb := h.bound b (hperm.subset hb)
  nonempty b hb := h.nonempty b (hperm.subset hb)
  nodup := (hperm.flatMap_right _).nodup_iff.mpr h.nodup

end Compatible

/-! ## Attaching one after the other -/

/-- A model with backends that are attached in the order in which they stand. -/
def attachAll (model : Model) (backends : List Backend) :
    Except ConfigurationError LocalizedModel :=
  backends.foldlM withBackend { model := model }

/-- Further backends are attached exactly if they are compatible with those that are there. -/
theorem Compatible.foldlM_withBackend_eq_ok_iff (h : Compatible t.model t.backends) :
    backends.foldlM withBackend t = .ok t' ↔ Compatible t.model (t.backends ++ backends) ∧
      t' = { t with backends := t.backends ++ backends } := by
  induction backends generalizing t with
  | nil =>
    rw [List.foldlM_nil, pure_eq_ok, List.append_nil, eq_comm]
    exact (and_iff_right h).symm
  | cons b rest ih =>
    rw [List.foldlM_cons, bind_eq_ok, List.append_cons]
    constructor
    · rintro ⟨next, hattach, hrest⟩
      obtain ⟨hnext, rfl⟩ := h.withBackend_eq_ok_iff.mp hattach
      exact (ih hnext).mp hrest
    · rintro ⟨hall, rfl⟩
      have hnext := hall.of_append
      exact ⟨_, h.withBackend_eq_ok_iff.mpr ⟨hnext, rfl⟩, (ih hnext).mpr ⟨hall, rfl⟩⟩

/-- **Backends are attached exactly if they are compatible.** -/
theorem attachAll_eq_ok_iff : attachAll model backends = .ok t ↔
    Compatible model backends ∧ t = { model := model, backends := backends } := by
  have hstart : Compatible (LocalizedModel.mk model []).model [] := compatible_nil model
  exact hstart.foldlM_withBackend_eq_ok_iff

end LocalizedModel

end LocalizedQuery
