import LocalizedQuery.Proofs.Restriction

/-!
# What an alias identifies

A query knows its joins by their aliases alone, and the alias of a localized attribute is put
together from names: the attribute and the normalized locale with an underscore between. Both parts
lose something. The normal form of a locale forgets case and takes hyphens for underscores, and an
underscore may belong to the attribute, to the locale, or stand between them. So `title` in `pt-BR`
and in `pt_BR` have one alias, and so have `title_en` in `fr` and `title` in `en-fr`.

Where two uses share an alias, the second gets the join of the first, whose condition names another
locale or attribute. `LocalizedModel.own_joins_iff` says that this is the only way to miss a join;
`Locale.Plain` names the locales among which it does not happen.

## Main results

* `KeyValueBackend.aliasName_eq_iff`, `TableBackend.aliasName_eq_iff` — when two aliases are equal
* `KeyValueBackend.aliasName_injective` — plain locales are told apart
* `LocalizedModel.own_joins_iff` — when every use in a run has its own join
* `LocalizedModel.locales_share_alias` — two locales of which only one is joined
-/

namespace LocalizedQuery

/-! ## Aliases -/

/-- A locale whose tag is its normal form and has no underscore, such as `en`. -/
def Locale.Plain (locale : Locale) : Prop :=
  locale.normalized = locale.tag ∧ '_' ∉ locale.tag.toList

/-- The last underscore divides a name. -/
theorem eq_of_append_underscore_eq {first first' last last' : String} (h : '_' ∉ last.toList)
    (h' : '_' ∉ last'.toList) (heq : first ++ "_" ++ last = first' ++ "_" ++ last') :
    first = first' ∧ last = last' := by
  have hlists : first.toList ++ '_' :: last.toList = first'.toList ++ '_' :: last'.toList := by
    simpa using congrArg String.toList heq
  rcases List.append_eq_append_iff.mp hlists with ⟨more, hfirst, hlast⟩ | ⟨more, hfirst, hlast⟩
  · cases more with
    | nil =>
      rw [List.append_nil] at hfirst
      exact ⟨String.toList_inj.mp hfirst.symm,
        String.toList_inj.mp (List.tail_eq_of_cons_eq hlast)⟩
    | cons c rest =>
      have hmem : '_' ∈ last.toList := by
        rw [List.tail_eq_of_cons_eq hlast]
        simp
      exact absurd hmem h
  · cases more with
    | nil =>
      rw [List.append_nil] at hfirst
      exact ⟨String.toList_inj.mp hfirst,
        String.toList_inj.mp (List.tail_eq_of_cons_eq hlast).symm⟩
    | cons c rest =>
      have hmem : '_' ∈ last'.toList := by
        rw [List.tail_eq_of_cons_eq hlast]
        simp
      exact absurd hmem h'

namespace KeyValueBackend

variable {b : KeyValueBackend} {name name' : String} {locale locale' : Locale}

/-- **When two aliases of a key-value table are equal.** -/
theorem aliasName_eq_iff :
    b.aliasName name locale = b.aliasName name' locale' ↔
      name ++ "_" ++ locale.normalized = name' ++ "_" ++ locale'.normalized := by
  have hsplit : ∀ name locale, b.aliasName name locale
      = b.model.singular ++ "_" ++ (name ++ "_" ++ locale.normalized) ++ ("_" ++ b.table) := by
    intro name locale
    simp [aliasName, String.append_assoc, toString]
  rw [hsplit, hsplit, String.append_left_inj, String.append_right_inj]

/-- **The aliases of plain locales identify the attribute and the locale.** -/
theorem aliasName_injective (hlocale : locale.Plain) (hlocale' : locale'.Plain)
    (h : b.aliasName name locale = b.aliasName name' locale') :
    name = name' ∧ locale = locale' := by
  rw [aliasName_eq_iff, hlocale.1, hlocale'.1] at h
  obtain ⟨hname, htag⟩ := eq_of_append_underscore_eq hlocale.2 hlocale'.2 h
  exact ⟨hname, Locale.eq_of_tag_eq htag⟩

end KeyValueBackend

namespace TableBackend

variable {b : TableBackend} {locale locale' : Locale}

/-- **When two aliases of a table are equal.** -/
theorem aliasName_eq_iff :
    b.aliasName locale = b.aliasName locale' ↔ locale.normalized = locale'.normalized := by
  have hsplit : ∀ locale, b.aliasName locale = b.table ++ "_" ++ locale.normalized := by
    intro locale
    simp [aliasName, toString]
  rw [hsplit, hsplit, String.append_right_inj]

/-- **The aliases of plain locales identify the locale.** -/
theorem aliasName_injective (hlocale : locale.Plain) (hlocale' : locale'.Plain)
    (h : b.aliasName locale = b.aliasName locale') : locale = locale' := by
  rw [aliasName_eq_iff, hlocale.1, hlocale'.1] at h
  exact Locale.eq_of_tag_eq h

end TableBackend

/-! ## Runs -/

namespace JoinTarget

variable {target other : JoinTarget} {kind kind' : JoinKind}

theorem eq_of_join_eq (h : target.join kind = other.join kind') : target = other := by
  cases target
  cases other
  simp only [join, Join.mk.injEq] at h
  rw [h.2.1, h.2.2]

end JoinTarget

/-- An inner join serves whatever has its alias. -/
theorem Query.applyJoin_of_shared {q : Query} {target other : JoinTarget} {kind : JoinKind}
    (hjoins : q.joins = [target.join .inner]) (hname : target.aliasName = other.aliasName) :
    q.applyJoin other kind = q := by
  have hfind : q.findJoin other.aliasName = some (target.join .inner) := by
    rw [findJoin, hjoins]
    exact List.find?_cons_of_pos (beq_iff_eq.mpr hname)
  have hserves : (target.join .inner).kind.satisfies kind = true := rfl
  exact applyJoin_of_served hfind hserves

namespace LocalizedModel

variable {t : LocalizedModel} {restrictions : List Restriction} {q q' : Query}

/-- A run uses a target if one of its predicates refers to an attribute that the target serves. -/
def Uses (t : LocalizedModel) (restrictions : List Restriction) (target : JoinTarget) : Prop :=
  ∃ restriction ∈ restrictions, ∃ b ∈ t.backends, ∃ name, b.keeps name = true ∧
    b.reference name restriction.locale ∈ restriction.predicate.references ∧
    target = b.target name restriction.locale

/-- The plan of a run is for the targets that the run uses. -/
theorem PlansFor.uses_iff (ht : t.Attached)
    (hpredicates : ∀ restriction ∈ restrictions,
      t.Localizes restriction.locale restriction.predicate)
    {plan : List JoinRequirement} (hplan : t.PlansFor restrictions plan) {target : JoinTarget} :
    t.Uses restrictions target ↔ ∃ requirement ∈ plan, requirement.target = target := by
  constructor
  · rintro ⟨restriction, hrestriction, hused⟩
    obtain ⟨part, hpart⟩ := hplan.planned restriction hrestriction
    obtain ⟨requirement, hmem, htarget⟩ :=
      (mem_targets_plan ht (hpredicates restriction hrestriction) hpart).mpr hused
    exact ⟨requirement, (hplan.mem requirement).mpr ⟨restriction, hrestriction, part, hpart, hmem⟩,
      htarget⟩
  · rintro ⟨requirement, hmem, rfl⟩
    obtain ⟨restriction, hrestriction, part, hpart, hrequirement⟩ := (hplan.mem requirement).mp hmem
    exact ⟨restriction, hrestriction,
      (mem_targets_plan ht (hpredicates restriction hrestriction) hpart).mp
        ⟨requirement, hrequirement, rfl⟩⟩

/-- **When every use in a run has its own join.** It has if and only if no two of the targets share
an alias. -/
theorem own_joins_iff (ht : t.Attached)
    (hpredicates : ∀ restriction ∈ restrictions,
      t.Localizes restriction.locale restriction.predicate)
    (hq : (q.joins.map Join.target).Nodup)
    (hfree : ∀ target, t.Uses restrictions target → target.aliasName ∉ q.joins.map Join.target)
    (h : t.restrictBy q restrictions = .ok q') :
    (∀ target, t.Uses restrictions target → ∃ kind, target.join kind ∈ q'.joins) ↔
      ∀ target other, t.Uses restrictions target → t.Uses restrictions other →
        target.aliasName = other.aliasName → target = other := by
  obtain ⟨-, plan, hplan, hjoins⟩ := exists_plan_of_restrictBy h
  have huses : ∀ target, t.Uses restrictions target ↔
      ∃ requirement ∈ plan, requirement.target = target :=
    fun _ => hplan.uses_iff ht hpredicates
  have hnodup : (q'.joins.map Join.target).Nodup := by
    rw [hjoins]
    exact Query.nodup_applyPlan hq
  constructor
  · intro hown target other htarget hother hname
    obtain ⟨kind, hkind⟩ := hown target htarget
    obtain ⟨kind', hkind'⟩ := hown other hother
    exact JoinTarget.eq_of_join_eq (List.inj_on_of_nodup_map hnodup hkind hkind' hname)
  · intro hapart target htarget
    have hcoherent : Query.Coherent plan := by
      intro requirement hmem other hother hname
      have hsame : requirement.target = other.target :=
        hapart _ _ ((huses _).mpr ⟨requirement, hmem, rfl⟩) ((huses _).mpr ⟨other, hother, rfl⟩)
          hname
      exact ⟨congrArg JoinTarget.table hsame, congrArg JoinTarget.on hsame⟩
    obtain ⟨requirement, hmem, rfl⟩ := (huses target).mp htarget
    have hnew : q.findJoin requirement.target.aliasName = none := by
      refine List.find?_eq_none.mpr fun join hjoin hname => ?_
      exact hfree _ htarget (List.mem_map.mpr ⟨join, hjoin, beq_iff_eq.mp hname⟩)
    have hfind := hcoherent.findJoin_applyPlan (q := q) hmem
    rw [hnew] at hfind
    refine ⟨Query.demanded plan requirement.target.aliasName, ?_⟩
    rw [hjoins]
    exact List.mem_of_find?_eq_some hfind

/-- **When aliases identify joins.** Two uses of a key-value table share an alias if the attributes
and the normal forms of the locales, put together, are the same; two of a table, if the locales have
one normal form. What shares an alias need not be the same, but for plain locales it is. In a run
every attribute and locale that is used has a join for exactly them if and only if no two that are
used share an alias without being the same. -/
theorem alias_identifies_target_iff (k : KeyValueBackend) (b : TableBackend) (t : LocalizedModel) :
    (∀ name name' locale locale',
      ((k.joinTarget name locale).aliasName = (k.joinTarget name' locale').aliasName ↔
        name ++ "_" ++ locale.normalized = name' ++ "_" ++ locale'.normalized) ∧
      (k.joinTarget name locale = k.joinTarget name' locale' ↔ name = name' ∧ locale = locale') ∧
      (locale.Plain → locale'.Plain →
        (k.joinTarget name locale).aliasName = (k.joinTarget name' locale').aliasName →
          name = name' ∧ locale = locale')) ∧
    (∀ locale locale',
      ((b.joinTarget locale).aliasName = (b.joinTarget locale').aliasName ↔
        locale.normalized = locale'.normalized) ∧
      (b.joinTarget locale = b.joinTarget locale' ↔ locale = locale') ∧
      (locale.Plain → locale'.Plain →
        (b.joinTarget locale).aliasName = (b.joinTarget locale').aliasName → locale = locale')) ∧
    ∀ (restrictions : List Restriction) (q q' : Query), t.Attached →
      (∀ restriction ∈ restrictions, t.Localizes restriction.locale restriction.predicate) →
      (q.joins.map Join.target).Nodup →
      (∀ target, t.Uses restrictions target → target.aliasName ∉ q.joins.map Join.target) →
      t.restrictBy q restrictions = .ok q' →
      ((∀ target, t.Uses restrictions target → ∃ kind, target.join kind ∈ q'.joins) ↔
        ∀ target other, t.Uses restrictions target → t.Uses restrictions other →
          target.aliasName = other.aliasName → target = other) := by
  refine ⟨fun name name' locale locale' => ?_, fun locale locale' => ?_,
    fun restrictions q q' ht hpredicates hq hfree h => own_joins_iff ht hpredicates hq hfree h⟩
  · exact ⟨KeyValueBackend.aliasName_eq_iff, KeyValueBackend.joinTarget_eq_iff,
      KeyValueBackend.aliasName_injective⟩
  · exact ⟨TableBackend.aliasName_eq_iff, TableBackend.joinTarget_eq_iff,
      TableBackend.aliasName_injective⟩

/-! ## Titles in several locales -/

/-- The title of a post in a locale. -/
def titleIn (tag : String) : Expr := .localized (postTitles.reference "title" ⟨tag⟩)

/-- The restrictions to posts whose title is `x` in each of some locales. -/
def titlesIn (tags : List String) : List Restriction :=
  tags.map fun tag => { predicate := (titleIn tag).equals (.text "x"), locale := ⟨tag⟩ }

theorem references_titleIn_equals (tag : String) :
    ((titleIn tag).equals (.text "x")).references = [postTitles.reference "title" ⟨tag⟩] := rfl

theorem localizes_titlesIn {tags : List String} :
    ∀ restriction ∈ titlesIn tags, posts.Localizes restriction.locale restriction.predicate := by
  intro restriction hrestriction
  obtain ⟨tag, -, rfl⟩ := List.mem_map.mp hrestriction
  intro ref href
  rw [references_titleIn_equals, List.mem_singleton] at href
  exact ⟨.keyValue postTitles, List.mem_cons_self, "title", by decide, href⟩

theorem uses_titlesIn {tags : List String} {target : JoinTarget}
    (h : posts.Uses (titlesIn tags) target) :
    ∃ tag ∈ tags, target = postTitles.joinTarget "title" ⟨tag⟩ := by
  obtain ⟨restriction, hrestriction, b, hb, name, -, href, rfl⟩ := h
  obtain ⟨tag, htag, rfl⟩ := List.mem_map.mp hrestriction
  rw [references_titleIn_equals, List.mem_singleton] at href
  refine ⟨tag, htag, ?_⟩
  have htitles : b = .keyValue postTitles := by
    refine attached_posts.eq_of_id_eq hb List.mem_cons_self ?_
    rw [← Backend.backend_reference b name ⟨tag⟩, href]
    rfl
  subst htitles
  have hname : name = "title" := congrArg Reference.attributeName href
  rw [hname]
  rfl

/-- A title that is compared is joined inner. -/
theorem plan_titleIn (tag : String) :
    posts.plan ((titleIn tag).equals (.text "x")) ⟨tag⟩ false
      = .ok [⟨some "title", postTitles.joinTarget "title" ⟨tag⟩, .inner⟩] := by
  have hexposes : ∀ b ∈ posts.backends,
      ((titleIn tag).equals (.text "x")).Exposes (Reference.belongsTo b.id ⟨tag⟩) :=
    fun _ _ => rejectUnsupported_eq_ok.mp rfl
  have howned : (postTitles.reference "title" ⟨tag⟩).belongsTo postTitles.id ⟨tag⟩ = true :=
    Backend.belongsTo_of_shares (Backend.shares_reference (.keyValue postTitles) "title" ⟨tag⟩)
  have hkinds : (KeyValueBackend.kinds postTitles.id ⟨tag⟩
      ((titleIn tag).equals (.text "x"))).entries = [("title", .inner)] := by
    rw [KeyValueBackend.kinds, references_titleIn_equals, KeyValueBackend.noted,
      KeyValueBackend.noted, List.filter_cons_of_pos howned]
    rfl
  have hrequired : (Backend.keyValue postTitles).requirements ((titleIn tag).equals (.text "x"))
      ⟨tag⟩ false = [⟨some "title", postTitles.joinTarget "title" ⟨tag⟩, .inner⟩] := by
    rw [Backend.requirements, hkinds]
    rfl
  rw [plan_eq_ok hexposes]
  exact congrArg (fun first => Except.ok (first ++ [])) hrequired

theorem restrictBy_titlesIn_ok (tags : List String) (q : Query) :
    ∃ q', posts.restrictBy q (titlesIn tags) = .ok q' := by
  refine foldlM_ok (fun restriction hrestriction q => ?_) q
  obtain ⟨tag, -, rfl⟩ := List.mem_map.mp hrestriction
  exact ⟨_, whereClause_eq_ok.mpr ⟨_, plan_titleIn tag, rfl⟩⟩

/-- English and German titles are joined each for itself. -/
theorem own_joins_titles :
    ∃ q', posts.restrictBy posts.model.baseQuery (titlesIn ["en", "de"]) = .ok q' ∧
      ∀ target, posts.Uses (titlesIn ["en", "de"]) target →
        ∃ kind, target.join kind ∈ q'.joins := by
  obtain ⟨q', hq'⟩ := restrictBy_titlesIn_ok ["en", "de"] posts.model.baseQuery
  refine ⟨q', hq', ?_⟩
  obtain ⟨hkeyValue, -, hruns⟩ := alias_identifies_target_iff postTitles postBodies posts
  have hplain : ∀ tag ∈ ["en", "de"], Locale.Plain ⟨tag⟩ := by
    intro tag htag
    simp only [List.mem_cons, List.not_mem_nil, or_false] at htag
    rcases htag with rfl | rfl
    · exact ⟨by decide +kernel, by decide⟩
    · exact ⟨by decide +kernel, by decide⟩
  refine (hruns _ posts.model.baseQuery q' attached_posts localizes_titlesIn List.nodup_nil
    (fun _ _ => List.not_mem_nil) hq').mpr fun target other htarget hother hname => ?_
  obtain ⟨tag, htag, rfl⟩ := uses_titlesIn htarget
  obtain ⟨tag', htag', rfl⟩ := uses_titlesIn hother
  obtain ⟨-, hlocale⟩ :=
    (hkeyValue "title" "title" ⟨tag⟩ ⟨tag'⟩).2.2 (hplain tag htag) (hplain tag' htag')
      hname
  rw [hlocale]

/-- Different locales, and different attributes, share an alias. Of two spellings of a locale that
are used in a run only the first is joined. -/
theorem locales_share_alias :
    (postTitles.joinTarget "title" ⟨"pt-BR"⟩).aliasName
        = (postTitles.joinTarget "title" ⟨"pt_BR"⟩).aliasName ∧
      (postTitles.joinTarget "title_en" ⟨"fr"⟩).aliasName
        = (postTitles.joinTarget "title" ⟨"en-fr"⟩).aliasName ∧
      (postBodies.joinTarget ⟨"pt-BR"⟩).aliasName = (postBodies.joinTarget ⟨"pt_BR"⟩).aliasName ∧
      (posts.restrictBy posts.model.baseQuery
          (titlesIn ["pt-BR", "pt_BR"])).toOption.map Query.joins
        = some [(postTitles.joinTarget "title" ⟨"pt-BR"⟩).join .inner] ∧
      ∀ kind, (postTitles.joinTarget "title" ⟨"pt_BR"⟩).join kind
        ∉ [(postTitles.joinTarget "title" ⟨"pt-BR"⟩).join .inner] := by
  have hnormalized : Locale.normalized ⟨"pt-BR"⟩ = Locale.normalized ⟨"pt_BR"⟩ :=
    calc Locale.normalized ⟨"pt-BR"⟩ = "pt_br" := by decide +kernel
      _ = Locale.normalized ⟨"pt_BR"⟩ := by decide +kernel
  have hshared : (postTitles.joinTarget "title" ⟨"pt-BR"⟩).aliasName
      = (postTitles.joinTarget "title" ⟨"pt_BR"⟩).aliasName :=
    KeyValueBackend.aliasName_eq_iff.mpr (congrArg ("title" ++ "_" ++ ·) hnormalized)
  refine ⟨hshared, KeyValueBackend.aliasName_eq_iff.mpr (by decide +kernel),
    TableBackend.aliasName_eq_iff.mpr hnormalized, ?_, fun kind hmem => ?_⟩
  · obtain ⟨q, hq, hjoins⟩ : ∃ q, posts.whereClause posts.model.baseQuery
        ((titleIn "pt-BR").equals (.text "x")) ⟨"pt-BR"⟩ false = .ok q ∧
          q.joins = [(postTitles.joinTarget "title" ⟨"pt-BR"⟩).join .inner] :=
      ⟨_, whereClause_eq_ok.mpr ⟨_, plan_titleIn "pt-BR", rfl⟩, rfl⟩
    have hserved : q.applyJoin (postTitles.joinTarget "title" ⟨"pt_BR"⟩) .inner = q :=
      Query.applyJoin_of_shared hjoins hshared
    have hq' : posts.whereClause q ((titleIn "pt_BR").equals (.text "x")) ⟨"pt_BR"⟩ false
        = .ok (q.filterBy ((titleIn "pt_BR").equals (.text "x")) false) :=
      whereClause_eq_ok.mpr ⟨_, plan_titleIn "pt_BR", congrArg (Query.filterBy · _ false) hserved⟩
    have hrun : posts.restrictBy posts.model.baseQuery (titlesIn ["pt-BR", "pt_BR"])
        = .ok (q.filterBy ((titleIn "pt_BR").equals (.text "x")) false) :=
      bind_eq_ok.mpr ⟨q, hq, bind_eq_ok.mpr ⟨_, hq', rfl⟩⟩
    rw [hrun]
    exact congrArg some hjoins
  have hsame := JoinTarget.eq_of_join_eq (List.mem_singleton.mp hmem)
  have htags : (⟨"pt_BR"⟩ : Locale) = ⟨"pt-BR"⟩ := (KeyValueBackend.joinTarget_eq_iff.mp hsame).2
  exact absurd htags (by decide)

end LocalizedModel

end LocalizedQuery
