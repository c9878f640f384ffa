import LocalizedQuery.Compile
import LocalizedQuery.Proofs.LocalizedModel

/-!
# The order of attaching

A name is looked up in the backends from the first to the last, and a predicate is planned in the
same order. So models with the same backends in another order may write their joins in another
order. What they read is the same: an attribute has one backend, and whether others are asked before
it makes no difference. Nor does the order matter for whether the backends are accepted at all,
since backends that are compatible are so in every order.

## Main results

* `LocalizedModel.Compatible.backendFor_eq` — the backend of an attribute, in every order
* `LocalizedModel.attributes_owned_once` — what attaching guarantees, in every order
-/

namespace LocalizedQuery

namespace LocalizedModel

variable {model : Model} {backends backends' : List Backend} {t t' : LocalizedModel}
  {locale : Locale}

/-- **The backend of an attribute** is found wherever it stands. -/
theorem Compatible.backendFor_eq (h : Compatible model backends)
    (hperm : backends'.Perm backends) (name : String) :
    backendFor ⟨model, backends'⟩ name = backendFor ⟨model, backends⟩ name := by
  have hfound : ∀ b, backendFor ⟨model, backends⟩ name = some b ↔
      b ∈ backends ∧ b.keeps name = true := fun b => h.backendFor_eq_some_iff
  have hfound' : ∀ b, backendFor ⟨model, backends'⟩ name = some b ↔
      b ∈ backends' ∧ b.keeps name = true := fun b => (h.perm hperm).backendFor_eq_some_iff
  refine Option.ext fun b => ?_
  rw [hfound', hfound, hperm.mem_iff]

/-- The leaf for an attribute depends on the model and on the backend that is found. -/
theorem attributeNode_congr (hmodel : t'.model = t.model)
    (hfound : ∀ name, t'.backendFor name = t.backendFor name) (name : String) (locale : Locale) :
    t'.attributeNode name locale = t.attributeNode name locale := by
  rw [attributeNode, attributeNode, hfound, hmodel]

/-- What a text denotes depends on the leaves for attributes. -/
theorem parse_congr (hnode : ∀ name, t'.attributeNode name locale = t.attributeNode name locale)
    (text : String) : t'.parse text locale = t.parse text locale := by
  have hresolve : t'.resolve locale = t.resolve locale := by
    funext name
    rw [resolve, resolve, hnode]
  rw [parse, parse, hresolve]

/-- **Attributes are owned once, in every order.** Backends that were attached one after the other
are bound to the model, each lists attributes and none of them twice, and no two keep the same one.
In every other order they are attached as well, and then each name has the same backend and the same
leaf, and each text denotes the same expression or has the same error. -/
theorem attributes_owned_once (h : attachAll model backends = .ok t) :
    t.model = model ∧ t.backends = backends ∧
    (∀ b ∈ t.backends, b.model = model ∧ b.attributeNames ≠ [] ∧ b.attributeNames.Nodup) ∧
    (t.backends.Pairwise fun b b' => ∀ name, ¬(b.keeps name = true ∧ b'.keeps name = true)) ∧
    ∀ backends' : List Backend, backends'.Perm backends →
      ∃ t', attachAll model backends' = .ok t' ∧ t'.backends = backends' ∧
        (∀ name, t'.backendFor name = t.backendFor name) ∧
        (∀ name locale, t'.attributeNode name locale = t.attributeNode name locale) ∧
        ∀ text locale, t'.parse text locale = t.parse text locale := by
  obtain ⟨hcompatible, rfl⟩ := attachAll_eq_ok_iff.mp h
  refine ⟨rfl, rfl, fun b hb => ?_, ?_, fun backends' hperm => ?_⟩
  · exact ⟨hcompatible.bound b hb, hcompatible.nonempty b hb, hcompatible.nodup_attributeNames hb⟩
  · refine hcompatible.pairwise_disjoint.imp ?_
    rintro b b' hdisjoint name ⟨hkeeps, hkeeps'⟩
    exact hdisjoint (List.contains_iff_mem.mp hkeeps) (List.contains_iff_mem.mp hkeeps')
  · have hfound := hcompatible.backendFor_eq hperm
    have hnode : ∀ name locale, attributeNode ⟨model, backends'⟩ name locale
        = attributeNode ⟨model, backends⟩ name locale := attributeNode_congr rfl hfound
    exact ⟨_, attachAll_eq_ok_iff.mpr ⟨hcompatible.perm hperm, rfl⟩, rfl, hfound, hnode,
      fun text locale => parse_congr (hnode · locale) text⟩

/-- The bodies may as well be attached before the titles. -/
theorem attributes_owned_once_posts :
    attachAll posts.model posts.backends = .ok posts ∧
      ∃ t', attachAll posts.model [.table postBodies, .keyValue postTitles] = .ok t' ∧
        t'.attributeNode "title" ⟨"en"⟩ = .ok postTitle ∧
        t'.parse "title = 'x' AND body = views" ⟨"en"⟩
          = posts.parse "title = 'x' AND body = views" ⟨"en"⟩ := by
  have h : attachAll posts.model posts.backends = .ok posts :=
    attachAll_eq_ok_iff.mpr ⟨attached_posts.compatible, rfl⟩
  obtain ⟨-, -, -, -, horder⟩ := attributes_owned_once h
  obtain ⟨t', ht', -, -, hnode, hparse⟩ :=
    horder [.table postBodies, .keyValue postTitles] (.swap ..)
  exact ⟨h, t', ht', hnode "title" ⟨"en"⟩, hparse _ _⟩

end LocalizedModel

end LocalizedQuery
