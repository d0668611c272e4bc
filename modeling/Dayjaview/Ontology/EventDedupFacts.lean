import Dayjaview.Ontology.EventDedup
import Mathlib.Logic.Relation

/-!
# Merged drafts keep their events apart

Merging does not depend on the order of the drafts. Every draft ends in one catalyst,
every catalyst in at most one project, and the steps of a project lead forward.
-/

namespace Dayjaview.Ontology

namespace DeduplicationResult

/-- A catalyst is followed by one that has come further. -/
def Advances (result : DeduplicationResult) (i j : String) : Prop :=
  ∃ r ∈ result.relations, r.relationType = .advances ∧ r.fromCatalystId = i ∧ r.toCatalystId = j

/-- A relation leads forward within a project. -/
def LeadsForward (result : DeduplicationResult) (r : CatalystRelationDraft) : Prop :=
  ∃ p ∈ result.projects, ∃ a ∈ result.catalysts, ∃ b ∈ result.catalysts,
    a.catalystId = r.fromCatalystId ∧ b.catalystId = r.toCatalystId ∧
      r.fromCatalystId ∈ p.catalystIds ∧ r.toCatalystId ∈ p.catalystIds ∧
        (∃ d e, a.primary.occurredOn = some d ∧ b.primary.occurredOn = some e ∧ d ≤ e) ∧
          eventStageRank a.primary.eventStage < eventStageRank b.primary.eventStage

/-- The events of some drafts are kept apart. -/
structure Merges (drafts : List CatalystDraft) (result : DeduplicationResult) : Prop where
  placed : ∀ d ∈ drafts, ∃! c, c ∈ result.catalysts ∧ d ∈ c.drafts
  counted : result.counts = {
    sourceRecordCount := (drafts.map fun d =>
      (d.sourceMention.sourceThemeId, d.sourceMention.sourceHistoryKey)).toFinset.card
    themeReactionCount := (drafts.map (·.reaction.reactionKey)).toFinset.card
    uniqueCatalystCount := (drafts.map (·.dedupKey)).toFinset.card
    projectCount := (drafts.filterMap (·.projectId)).toFinset.card }
  one_project : ∀ p ∈ result.projects, ∀ q ∈ result.projects,
    ∀ id ∈ p.catalystIds, id ∈ q.catalystIds → p = q
  advancing : ∀ r ∈ result.relations, r.relationType = .advances → result.LeadsForward r
  acyclic : ∀ id, ¬ Relation.TransGen result.Advances id id
  exclusive : ∀ r ∈ result.relations, ∀ s ∈ result.relations, r.relationType = .advances →
    s.relationType = .possibleDuplicate →
      ¬ (r.fromCatalystId = s.fromCatalystId ∧ r.toCatalystId = s.toCatalystId) ∧
        ¬ (r.fromCatalystId = s.toCatalystId ∧ r.toCatalystId = s.fromCatalystId)

end DeduplicationResult

/-- No two of the catalysts have one id. -/
def IdsApart (catalysts : List CanonicalCatalyst) : Prop := (catalysts.map (·.catalystId)).Nodup

namespace IdsApart

variable {catalysts : List CanonicalCatalyst}

theorem eq_of_id (h : IdsApart catalysts) {a b : CanonicalCatalyst} (ha : a ∈ catalysts)
    (hb : b ∈ catalysts) (hid : a.catalystId = b.catalystId) : a = b :=
  List.inj_on_of_nodup_map h ha hb hid

theorem nodup (h : IdsApart catalysts) : catalysts.Nodup := List.Nodup.of_map _ h

theorem filter (h : IdsApart catalysts) (p : CanonicalCatalyst → Bool) :
    IdsApart (catalysts.filter p) := (List.filter_sublist.map _).nodup h

end IdsApart

/-- The later one of two catalysts has come further. -/
def Further (a b : CanonicalCatalyst) : Prop :=
  (∃ d e, a.primary.occurredOn = some d ∧ b.primary.occurredOn = some e ∧ d ≤ e) ∧
    eventStageRank a.primary.eventStage < eventStageRank b.primary.eventStage

variable {a b : CanonicalCatalyst}

theorem occurredOn_le_of_projectSortKey {d e : Date} (ha : a.primary.occurredOn = some d)
    (hb : b.primary.occurredOn = some e) (h : projectSortKey a ≤ projectSortKey b) : d ≤ e := by
  unfold projectSortKey at h
  rw [ha, hb, Prod.Lex.toLex_le_toLex] at h
  rcases h with hlt | ⟨-, h⟩
  · exact absurd hlt (by simp)
  · rw [Prod.Lex.toLex_le_toLex] at h
    rcases h with hlt | ⟨heq, -⟩
    · exact hlt.le
    · exact heq.le

theorem pairwise_datedMembers (members : List CanonicalCatalyst) :
    (datedMembers members).Pairwise fun a b =>
      ∃ d e, a.primary.occurredOn = some d ∧ b.primary.occurredOn = some e ∧ d ≤ e := by
  have hsorted : (datedMembers members).Pairwise fun a b => projectSortKey a ≤ projectSortKey b :=
    List.Pairwise.filter _ pairwise_ranked
  refine hsorted.imp_of_mem fun {a b} ha hb h => ?_
  obtain ⟨d, hd⟩ := Option.isSome_iff_exists.mp (List.mem_filter.mp ha).2
  obtain ⟨e, he⟩ := Option.isSome_iff_exists.mp (List.mem_filter.mp hb).2
  exact ⟨d, e, hd, he, occurredOn_le_of_projectSortKey hd he h⟩

variable {c : CanonicalCatalyst} {members : List CanonicalCatalyst}

theorem mem_of_mem_datedMembers (h : c ∈ datedMembers members) :
    c ∈ members := mem_ranked.mp (List.mem_filter.mp h).1

theorem advance_eq_ok {r : CatalystRelationDraft} (h : advance (a, b) = .ok (some r)) :
    eventStageRank a.primary.eventStage < eventStageRank b.primary.eventStage ∧
      r.fromCatalystId = a.catalystId ∧ r.toCatalystId = b.catalystId ∧
        r.relationType = .advances := by
  unfold advance at h
  split at h
  · cases h
  · next hrank =>
    obtain ⟨relation, hmake, heq⟩ := bind_eq_ok.mp h
    obtain ⟨hvalid, rfl⟩ := checked_eq_ok.mp hmake
    cases heq
    exact ⟨not_le.mp hrank, rfl, rfl, rfl⟩

theorem exists_advance
    (h : a.primary.eventStage ≠ b.primary.eventStage → a.catalystId ≠ b.catalystId) :
    ∃ step, advance (a, b) = .ok step := by
  unfold advance
  split
  · exact ⟨none, rfl⟩
  · next hrank =>
    have hne : a.catalystId ≠ b.catalystId := h fun heq => hrank (by rw [heq])
    have hvalid : CatalystRelationDraft.Fields.postInit {
        fromCatalystId := a.catalystId
        toCatalystId := b.catalystId
        relationType := .advances
        reason := "같은 명시 프로젝트에서 날짜·단계가 앞으로 진행됨" } = .ok () :=
      ensure_eq_ok.mpr hne
    rw [CatalystRelationDraft.make, checked_of_ok hvalid]
    exact ⟨_, rfl⟩

theorem exists_buildProject {projectId : String} (hne : members ≠ []) (hapart : IdsApart members)
    (hlinked : ∀ c ∈ members, c.primary.projectFingerprint.isSome ∧
      c.primary.projectReference.isSome) :
    ∃ built, buildProject projectId members = .ok built := by
  have hperm : (ranked projectSortKey members).Perm members := ranked_perm
  have hranked : ranked projectSortKey members ≠ [] := fun hnil =>
    hne (List.perm_nil.mp (hnil ▸ hperm.symm))
  have hlatest : ∃ latest, latestOf stageSortKey (ranked projectSortKey members) = some latest :=
    exists_latestOf hranked
  obtain ⟨latest, hlatest⟩ := hlatest
  obtain ⟨first, rest, hfirst⟩ := List.exists_cons_of_ne_nil hranked
  have hmem : first ∈ members :=
    mem_ranked.mp (show first ∈ ranked projectSortKey members by simp [hfirst])
  obtain ⟨fingerprint, hfingerprint⟩ := Option.isSome_iff_exists.mp (hlinked first hmem).1
  obtain ⟨reference, hreference⟩ := Option.isSome_iff_exists.mp (hlinked first hmem).2
  have hsteps : ∃ steps, (neighbours (datedMembers members)).mapM advance = .ok steps := by
    refine exists_mapM_eq_ok fun pair hpair => ?_
    obtain ⟨ha, hb, -⟩ := rel_of_mem_neighbours (pairwise_datedMembers members) hpair
    refine exists_advance fun hstage hid => hstage ?_
    rw [hapart.eq_of_id (mem_of_mem_datedMembers ha) (mem_of_mem_datedMembers hb) hid]
  obtain ⟨steps, hsteps⟩ := hsteps
  have hhead : (ranked projectSortKey members).head? = some first := by rw [hfirst]; rfl
  unfold buildProject
  simp only [hhead, hlatest, hfingerprint, hreference, hsteps]
  exact ⟨_, rfl⟩

theorem buildProject_eq_ok {projectId : String} {p : ProjectDraft}
    {steps : List CatalystRelationDraft} (h : buildProject projectId members = .ok (p, steps)) :
    p.projectId = projectId ∧
      p.catalystIds = (ranked projectSortKey members).map (·.catalystId) ∧
        ∀ r ∈ steps, r.relationType = .advances ∧ ∃ a ∈ members, ∃ b ∈ members,
          r.fromCatalystId = a.catalystId ∧ r.toCatalystId = b.catalystId ∧ Further a b := by
  unfold buildProject at h
  simp only at h
  split at h
  · split at h
    · obtain ⟨advances, hadvances, heq⟩ := bind_eq_ok.mp h
      cases heq
      refine ⟨rfl, rfl, fun r hr => ?_⟩
      obtain ⟨step, hstep, rfl⟩ := List.mem_filterMap.mp hr
      obtain ⟨⟨a, b⟩, hpair, hadvance⟩ := (mem_of_mapM_eq_ok hadvances).1 _ hstep
      obtain ⟨ha, hb, hdates⟩ := rel_of_mem_neighbours (pairwise_datedMembers members) hpair
      obtain ⟨hrank, hfrom, hto, htype⟩ := advance_eq_ok hadvance
      exact ⟨htype, a, mem_of_mem_datedMembers ha, b, mem_of_mem_datedMembers hb, hfrom, hto,
        hdates, hrank⟩
    · cases h
  · cases h

/-- What the projects of some catalysts are. -/
structure Projected (catalysts : List CanonicalCatalyst) (projects : List ProjectDraft)
    (steps : List CatalystRelationDraft) : Prop where
  apart : (projects.map (·.projectId)).Nodup
  length : projects.length = (catalysts.filterMap (·.primary.projectId)).dedup.length
  members : ∀ p ∈ projects, ∀ id, id ∈ p.catalystIds ↔
    ∃ c ∈ catalysts, c.primary.projectId = some p.projectId ∧ c.catalystId = id
  steps : ∀ r ∈ steps, r.relationType = .advances ∧ ∃ p ∈ projects, ∃ a ∈ catalysts,
    ∃ b ∈ catalysts,
    a.primary.projectId = some p.projectId ∧ b.primary.projectId = some p.projectId ∧
      r.fromCatalystId = a.catalystId ∧ r.toCatalystId = b.catalystId ∧ Further a b

section
variable {catalysts : List CanonicalCatalyst}

theorem mem_projectGroup {projectId : String} {members : List CanonicalCatalyst}
    (h : (projectId, members) ∈ sortedGroups
      (fun c : CanonicalCatalyst => c.primary.projectId.getD "")
      (catalysts.filter fun c => c.primary.projectId.isSome)) {c : CanonicalCatalyst} :
    c ∈ members ↔ c ∈ catalysts ∧ c.primary.projectId = some projectId := by
  obtain ⟨-, rfl⟩ := (mem_sortedGroups _).mp h
  rw [List.mem_filter, List.mem_filter]
  cases c.primary.projectId <;> simp

theorem ne_nil_of_mem_groups {projectId : String} {members : List CanonicalCatalyst}
    (h : (projectId, members) ∈ sortedGroups
      (fun c : CanonicalCatalyst => c.primary.projectId.getD "")
      (catalysts.filter fun c => c.primary.projectId.isSome)) : members ≠ [] := by
  obtain ⟨hkey, rfl⟩ := (mem_sortedGroups _).mp h
  obtain ⟨c, hc, hkey⟩ := List.mem_map.mp hkey
  exact List.ne_nil_of_mem (List.mem_filter.mpr ⟨hc, decide_eq_true hkey⟩)

theorem exists_buildProjects (hapart : IdsApart catalysts)
    (hlinked : ∀ c ∈ catalysts, c.primary.projectId.isSome →
      c.primary.projectFingerprint.isSome ∧ c.primary.projectReference.isSome) :
    ∃ built, buildProjects catalysts = .ok built := by
  have hbuilt : ∃ built, (sortedGroups (fun c : CanonicalCatalyst => c.primary.projectId.getD "")
      (catalysts.filter fun c => c.primary.projectId.isSome)).mapM
        (fun e => buildProject e.1 e.2) = .ok built := by
    refine exists_mapM_eq_ok fun e he => ?_
    have hmembers : IdsApart e.2 := by
      obtain ⟨-, hgroup⟩ := (mem_sortedGroups _).mp he
      rw [hgroup]
      exact (hapart.filter _).filter _
    refine exists_buildProject (ne_nil_of_mem_groups he) hmembers fun c hc => ?_
    obtain ⟨hc, hproject⟩ := (mem_projectGroup he).mp hc
    exact hlinked c hc (by rw [hproject]; rfl)
  obtain ⟨built, hbuilt⟩ := hbuilt
  unfold buildProjects
  simp only [hbuilt]
  exact ⟨_, rfl⟩

theorem buildProjects_eq_ok {projects : List ProjectDraft} {steps : List CatalystRelationDraft}
    (h : buildProjects catalysts = .ok (projects, steps)) : Projected catalysts projects steps := by
  obtain ⟨built, hbuilt, heq⟩ := bind_eq_ok.mp h
  cases heq
  have hids : built.map (fun x => x.1.projectId) = _ :=
    map_eq_of_mapM_eq_ok hbuilt (g := Prod.fst) fun e x hx => (buildProject_eq_ok hx).1
  have hfrom : ∀ x ∈ built, ∃ members, (x.1.projectId, members) ∈ sortedGroups
      (fun c : CanonicalCatalyst => c.primary.projectId.getD "")
        (catalysts.filter fun c => c.primary.projectId.isSome) ∧
          buildProject x.1.projectId members = .ok x := by
    intro x hx
    obtain ⟨⟨projectId, members⟩, he, hproject⟩ := (mem_of_mapM_eq_ok hbuilt).1 x hx
    obtain rfl := (buildProject_eq_ok hproject).1
    exact ⟨members, he, hproject⟩
  constructor
  · rw [List.map_map, Function.comp_def, hids]
    exact nodup_sortedGroups _ _
  · rw [List.length_map, ← List.length_map (fun x => x.1.projectId), hids, List.length_map,
      length_sortedGroups, map_getD_filter_isSome]
  · intro p hp id
    obtain ⟨x, hx, rfl⟩ := List.mem_map.mp hp
    obtain ⟨members, he, hproject⟩ := hfrom x hx
    rw [(buildProject_eq_ok hproject).2.1, List.mem_map]
    simp only [mem_ranked, mem_projectGroup he, and_assoc]
  · intro r hr
    obtain ⟨x, hx, hr⟩ := List.mem_flatMap.mp hr
    obtain ⟨members, he, hproject⟩ := hfrom x hx
    obtain ⟨htype, a, ha, b, hb, hstep⟩ := (buildProject_eq_ok hproject).2.2 r hr
    obtain ⟨ha, hpa⟩ := (mem_projectGroup he).mp ha
    obtain ⟨hb, hpb⟩ := (mem_projectGroup he).mp hb
    exact ⟨htype, x.1, List.mem_map_of_mem hx, a, ha, b, hb, hpa, hpb, hstep⟩

end

theorem eventStage_of_possibleDuplicateKey {key : DuplicateKey}
    (h : possibleDuplicateKey c = some key) : key.eventStage = c.primary.eventStage := by
  unfold possibleDuplicateKey at h
  split at h
  · cases h
  · split at h
    · cases h
    · cases h
      rfl

section
variable {catalysts : List CanonicalCatalyst}

variable {a b : CanonicalCatalyst}

theorem candidates_spec (hapart : IdsApart catalysts) (h : (a, b) ∈ (grouped possibleDuplicateKey
      (catalysts.filter fun c => (possibleDuplicateKey c).isSome)).values.flatMap fun members =>
        pairsOf (ranked (·.catalystId) members)) :
    a ∈ catalysts ∧ b ∈ catalysts ∧ a.catalystId ≠ b.catalystId ∧
      a.primary.eventStage = b.primary.eventStage := by
  obtain ⟨members, hmembers, hpair⟩ := List.mem_flatMap.mp h
  obtain ⟨⟨key, members⟩, hentry, rfl⟩ := List.mem_map.mp hmembers
  obtain ⟨-, hgroup⟩ := (mem_grouped _).mp hentry
  have hids : IdsApart members := by
    rw [hgroup]
    exact (hapart.filter _).filter _
  have hkey : ∀ c ∈ members, c ∈ catalysts ∧ ∃ k, key = some k ∧ possibleDuplicateKey c =
      some k := by
    intro c hc
    rw [hgroup, List.mem_filter, List.mem_filter] at hc
    obtain ⟨⟨hc, hsome⟩, hkey⟩ := hc
    obtain ⟨k, hk⟩ := Option.isSome_iff_exists.mp hsome
    exact ⟨hc, k, by rw [← of_decide_eq_true hkey, hk], hk⟩
  have hordered : (ranked (·.catalystId) members).Pairwise fun a b => a.catalystId < b.catalystId :=
    pairwise_lt_ranked hids.nodup fun a ha b hb => hids.eq_of_id ha hb
  obtain ⟨ha, hb, hlt⟩ := rel_of_mem_pairsOf hordered hpair
  obtain ⟨hamem, k, hk, hka⟩ := hkey a (mem_ranked.mp ha)
  obtain ⟨hbmem, k', hk', hkb⟩ := hkey b (mem_ranked.mp hb)
  obtain rfl := Option.some.inj (hk.symm.trans hk')
  exact ⟨hamem, hbmem, hlt.ne, by
    rw [← eventStage_of_possibleDuplicateKey hka, eventStage_of_possibleDuplicateKey hkb]⟩

variable [Compatibility] [UnicodeTable]

theorem relatePossible_eq_ok {r : CatalystRelationDraft}
    (h : relatePossible (a, b) = .ok (some r)) :
    r.fromCatalystId = a.catalystId ∧ r.toCatalystId = b.catalystId ∧
      r.relationType = .possibleDuplicate := by
  unfold relatePossible at h
  split at h
  · obtain ⟨relation, hmake, heq⟩ := bind_eq_ok.mp h
    obtain ⟨hvalid, rfl⟩ := checked_eq_ok.mp hmake
    cases heq
    exact ⟨rfl, rfl, rfl⟩
  · cases h

theorem exists_relatePossible (h : a.catalystId ≠ b.catalystId) :
    ∃ relation, relatePossible (a, b) = .ok relation := by
  unfold relatePossible
  split
  · have hvalid : CatalystRelationDraft.Fields.postInit {
        fromCatalystId := a.catalystId
        toCatalystId := b.catalystId
        relationType := .possibleDuplicate
        reason := "같은 날짜·단계·회사 또는 프로젝트지만 자동 병합 key가 다름" } = .ok () :=
      ensure_eq_ok.mpr h
    rw [CatalystRelationDraft.make, checked_of_ok hvalid]
    exact ⟨_, rfl⟩
  · exact ⟨none, rfl⟩

theorem exists_possibleDuplicates (hapart : IdsApart catalysts) :
    ∃ possible, possibleDuplicates catalysts = .ok possible := by
  have hrelated : ∃ related, ((grouped possibleDuplicateKey
      (catalysts.filter fun c => (possibleDuplicateKey c).isSome)).values.flatMap fun members =>
        pairsOf (ranked (·.catalystId) members)).mapM relatePossible = .ok related := by
    refine exists_mapM_eq_ok fun pair hpair => ?_
    exact exists_relatePossible (candidates_spec hapart hpair).2.2.1
  obtain ⟨related, hrelated⟩ := hrelated
  unfold possibleDuplicates
  simp only [hrelated]
  exact ⟨_, rfl⟩

theorem possibleDuplicates_eq_ok (hapart : IdsApart catalysts)
    {possible : List CatalystRelationDraft} (h : possibleDuplicates catalysts = .ok possible) :
    ∀ r ∈ possible, r.relationType = .possibleDuplicate ∧ ∃ a ∈ catalysts, ∃ b ∈ catalysts,
      r.fromCatalystId = a.catalystId ∧ r.toCatalystId = b.catalystId ∧
        a.primary.eventStage = b.primary.eventStage := by
  obtain ⟨related, hrelated, heq⟩ := bind_eq_ok.mp h
  cases heq
  intro r hr
  obtain ⟨relation, hrelation, rfl⟩ := List.mem_filterMap.mp hr
  obtain ⟨⟨a, b⟩, hpair, hrelate⟩ := (mem_of_mapM_eq_ok hrelated).1 _ hrelation
  obtain ⟨hfrom, hto, htype⟩ := relatePossible_eq_ok hrelate
  obtain ⟨ha, hb, -, hstage⟩ := candidates_spec hapart hpair
  exact ⟨htype, a, ha, b, hb, hfrom, hto, hstage⟩

end

theorem deduplicateCatalysts_perm [Compatibility] [UnicodeTable]
    {drafts drafts' : List CatalystDraft}
    (hperm : drafts'.Perm drafts) (happart : RanksApart draftSortKey drafts') :
    deduplicateCatalysts drafts' = deduplicateCatalysts drafts := by
  have hsorted : ranked draftSortKey drafts' = ranked draftSortKey drafts :=
    ranked_eq_of_perm hperm happart
  have hrecords : (drafts'.map fun d =>
      (d.sourceMention.sourceThemeId, d.sourceMention.sourceHistoryKey)).dedup.length =
        (drafts.map fun d =>
          (d.sourceMention.sourceThemeId, d.sourceMention.sourceHistoryKey)).dedup.length :=
    (hperm.map _).dedup.length_eq
  have hreactions : (drafts'.map (·.reaction.reactionKey)).dedup.length =
      (drafts.map (·.reaction.reactionKey)).dedup.length := (hperm.map _).dedup.length_eq
  have hdatasets :
      sortedSet (drafts'.map (·.datasetHash)) = sortedSet (drafts.map (·.datasetHash)) :=
    ranked_eq_of_perm (hperm.map _).dedup fun _ _ _ _ h => h
  unfold deduplicateCatalysts
  rw [hsorted, hrecords, hreactions, hdatasets]

/-- What the catalysts of some drafts are. -/
structure Merged (drafts : List CatalystDraft) (catalysts : List CanonicalCatalyst) : Prop where
  apart : IdsApart catalysts
  keys_apart : (catalysts.map (·.dedupKey)).Nodup
  length : catalysts.length = (drafts.map (·.dedupKey)).dedup.length
  holds : ∀ c ∈ catalysts, ∀ d, d ∈ c.drafts ↔ d ∈ drafts ∧ d.dedupKey = c.dedupKey
  found : ∀ d ∈ drafts, ∃ c ∈ catalysts, c.dedupKey = d.dedupKey

theorem CanonicalCatalyst.dedupKey_primary (c : CanonicalCatalyst) :
    c.primary.dedupKey = c.dedupKey :=
  (Fields.postInit_eq_ok.mp c.valid).2.2.1 _ c.primary_mem

theorem CanonicalCatalyst.catalystId_eq (c : CanonicalCatalyst) :
    c.catalystId = catalystIdOf c.dedupKey := (Fields.postInit_eq_ok.mp c.valid).2.1

theorem catalystIdOf_inj {key key' : String} (h : catalystIdOf key = catalystIdOf key') :
    takeText 24 key = takeText 24 key' := (String.append_right_inj _).mp h

theorem catalystOf_spec {dedupKey : String} {group : List CatalystDraft} (hne : group ≠ [])
    (hkey : ∀ d ∈ group, d.dedupKey = dedupKey)
    (hsorted : group.Pairwise fun a b => draftSortKey a ≤ draftSortKey b)
    (hversions : ∀ a ∈ group, ∀ b ∈ group, a.versions = b.versions) :
    ∃ c, catalystOf dedupKey group = .ok c := by
  have hone : (group.map CatalystDraft.versions).dedup.length = 1 := by
    obtain ⟨first, rest, hfirst⟩ := List.exists_cons_of_ne_nil hne
    have hall : (group.map CatalystDraft.versions).dedup = [first.versions] := by
      rw [dedup_eq_singleton]
      refine ⟨by simp [hne], fun a ha => ?_⟩
      obtain ⟨d, hd, rfl⟩ := List.mem_map.mp ha
      exact hversions d hd first (by simp [hfirst])
    rw [hall]
    rfl
  unfold catalystOf CanonicalCatalyst.make
  rw [checked_of_ok (CanonicalCatalyst.Fields.postInit_eq_ok.mpr
    ⟨hne, rfl, hkey, ranked_of_pairwise hsorted, hone⟩)]
  exact ⟨_, rfl⟩

theorem catalystOf_eq_ok {dedupKey : String} {group : List CatalystDraft}
    (h : catalystOf dedupKey group = .ok c) : c.dedupKey = dedupKey ∧ c.drafts = group := by
  obtain ⟨hvalid, rfl⟩ := checked_eq_ok.mp h
  exact ⟨rfl, rfl⟩

section
variable [Compatibility] [UnicodeTable] [Sha256] {drafts : List CatalystDraft}

/-- Drafts of one dataset and one set of versions, read at different places, whose keys the
first digits tell apart. -/
structure Mergeable (drafts : List CatalystDraft) : Prop where
  structured : ∀ d ∈ drafts, d.Structured
  one_version : ∀ a ∈ drafts, ∀ b ∈ drafts, a.versions = b.versions
  mentions_apart : (drafts.map (·.sourceMention)).Nodup
  keys_told : ∀ a ∈ drafts, ∀ b ∈ drafts, takeText 24 a.dedupKey = takeText 24 b.dedupKey →
    a.dedupKey = b.dedupKey

theorem Mergeable.perm (h : Mergeable drafts) {drafts' : List CatalystDraft}
    (hperm : drafts'.Perm drafts) : Mergeable drafts' where
  structured d hd := h.structured d (hperm.mem_iff.mp hd)
  one_version a ha b hb := h.one_version a (hperm.mem_iff.mp ha) b (hperm.mem_iff.mp hb)
  mentions_apart := (hperm.map _).nodup_iff.mpr h.mentions_apart
  keys_told a ha b hb := h.keys_told a (hperm.mem_iff.mp ha) b (hperm.mem_iff.mp hb)

theorem Mergeable.ranksApart (hinj : Function.Injective (hexdigest : String → String))
    (h : Mergeable drafts) : RanksApart draftSortKey drafts := by
  intro a ha b hb hrank
  have hhash : a.sourceMention.outputHash = b.sourceMention.outputHash := by
    simp only [draftSortKey, mentionRank, EmbeddingLike.apply_eq_iff_eq, Prod.mk.injEq] at hrank
    exact hrank.2.2.2.2.2
  exact List.inj_on_of_nodup_map h.mentions_apart ha hb
    (sourceMention_eq_of_outputHash hinj (h.structured a ha) (h.structured b hb) hhash)

theorem exists_catalysts (h : Mergeable drafts) :
    ∃ catalysts, (sortedGroups (·.dedupKey) (ranked draftSortKey drafts)).mapM
      (fun e => catalystOf e.1 e.2) = .ok catalysts := by
  refine exists_mapM_eq_ok fun e he => ?_
  obtain ⟨hkey, hgroup⟩ := (mem_sortedGroups _).mp he
  have hmem : ∀ d ∈ e.2, d ∈ drafts ∧ d.dedupKey = e.1 := by
    intro d hd
    rw [hgroup, List.mem_filter, mem_ranked, decide_eq_true_eq] at hd
    exact hd
  refine catalystOf_spec ?_ (fun d hd => (hmem d hd).2) ?_ fun a ha b hb =>
    h.one_version a (hmem a ha).1 b (hmem b hb).1
  · obtain ⟨d, hd, hdkey⟩ := List.mem_map.mp hkey
    rw [hgroup]
    exact List.ne_nil_of_mem (List.mem_filter.mpr ⟨hd, decide_eq_true hdkey⟩)
  · rw [hgroup]
    exact List.Pairwise.filter _ pairwise_ranked

variable {catalysts : List CanonicalCatalyst}

theorem merged_of_ok (h : Mergeable drafts)
    (hok : (sortedGroups (·.dedupKey) (ranked draftSortKey drafts)).mapM
      (fun e => catalystOf e.1 e.2) = .ok catalysts) : Merged drafts catalysts := by
  have hkeys : catalysts.map (·.dedupKey) = _ :=
    map_eq_of_mapM_eq_ok hok (g := Prod.fst) fun e c hc => (catalystOf_eq_ok hc).1
  have hapart : (catalysts.map (·.dedupKey)).Nodup := by
    rw [hkeys]
    exact nodup_sortedGroups _ _
  have hdrafts : ∀ c ∈ catalysts, ∀ d, d ∈ c.drafts ↔ d ∈ drafts ∧ d.dedupKey = c.dedupKey := by
    intro c hc d
    obtain ⟨e, he, hcatalyst⟩ := (mem_of_mapM_eq_ok hok).1 c hc
    obtain ⟨hkey, hgroup⟩ := catalystOf_eq_ok hcatalyst
    rw [hgroup, ((mem_sortedGroups _).mp he).2, List.mem_filter, mem_ranked,
      decide_eq_true_eq, hkey]
  refine ⟨?_, hapart, ?_, hdrafts, ?_⟩
  · refine List.Nodup.map_on ?_ (List.Nodup.of_map _ hapart)
    intro c hc c' hc' hid
    refine List.inj_on_of_nodup_map hapart hc hc' ?_
    rw [c.catalystId_eq, c'.catalystId_eq] at hid
    have hshort := catalystIdOf_inj hid
    rw [← c.dedupKey_primary, ← c'.dedupKey_primary] at hshort ⊢
    exact h.keys_told _ ((hdrafts c hc _).mp c.primary_mem).1 _
      ((hdrafts c' hc' _).mp c'.primary_mem).1 hshort
  · rw [← List.length_map (·.dedupKey), hkeys, List.length_map, length_sortedGroups]
    exact (ranked_perm.map _).dedup.length_eq
  · intro d hd
    have hgroup :
        (d.dedupKey, (ranked draftSortKey drafts).filter fun a => a.dedupKey = d.dedupKey) ∈
        sortedGroups (·.dedupKey) (ranked draftSortKey drafts) :=
      (mem_sortedGroups _).mpr ⟨List.mem_map_of_mem (mem_ranked.mpr hd), rfl⟩
    obtain ⟨c, hc, hcatalyst⟩ := (mem_of_mapM_eq_ok hok).2 _ hgroup
    exact ⟨c, hc, (catalystOf_eq_ok hcatalyst).1⟩

theorem Merged.projectId_eq (hinj : Function.Injective (hexdigest : String → String))
    (h : Mergeable drafts) (hmerged : Merged drafts catalysts) {c : CanonicalCatalyst}
    (hc : c ∈ catalysts) {d : CatalystDraft} (hd : d ∈ c.drafts) :
    d.projectId = c.primary.projectId := by
  obtain ⟨hd, hkey⟩ := (hmerged.holds c hc d).mp hd
  obtain ⟨hprimary, -⟩ := (hmerged.holds c hc _).mp c.primary_mem
  exact projectId_eq_of_dedupKey hinj (h.structured d hd) (h.structured _ hprimary)
    (hkey.trans c.dedupKey_primary.symm)

theorem Merged.mem_projectIds (hinj : Function.Injective (hexdigest : String → String))
    (h : Mergeable drafts) (hmerged : Merged drafts catalysts) (projectId : String) :
    projectId ∈ catalysts.filterMap (·.primary.projectId) ↔
      projectId ∈ drafts.filterMap (·.projectId) := by
  rw [List.mem_filterMap, List.mem_filterMap]
  constructor
  · rintro ⟨c, hc, hproject⟩
    exact ⟨c.primary, ((hmerged.holds c hc _).mp c.primary_mem).1, hproject⟩
  · rintro ⟨d, hd, hproject⟩
    obtain ⟨c, hc, hkey⟩ := hmerged.found d hd
    refine ⟨c, hc, ?_⟩
    rw [← hmerged.projectId_eq hinj h hc ((hmerged.holds c hc d).mpr ⟨hd, hkey.symm⟩), hproject]

omit [Compatibility] [UnicodeTable] [Sha256] in
theorem Merged.placed (hmerged : Merged drafts catalysts) {d : CatalystDraft} (hd : d ∈ drafts) :
    ∃! c, c ∈ catalysts ∧ d ∈ c.drafts := by
  obtain ⟨c, hc, hkey⟩ := hmerged.found d hd
  refine ⟨c, ⟨hc, (hmerged.holds c hc d).mpr ⟨hd, hkey.symm⟩⟩, ?_⟩
  rintro c' ⟨hc', hd'⟩
  refine List.inj_on_of_nodup_map hmerged.keys_apart hc' hc ?_
  rw [hkey, ((hmerged.holds c' hc' d).mp hd').2]

end

theorem DeduplicationResult.advances_forward {result : DeduplicationResult}
    (hapart : IdsApart result.catalysts)
    (hforward : ∀ r ∈ result.relations, r.relationType = .advances → result.LeadsForward r)
    {i j : String} (h : Relation.TransGen result.Advances i j) :
    ∃ a ∈ result.catalysts, ∃ b ∈ result.catalysts, a.catalystId = i ∧ b.catalystId = j ∧
      eventStageRank a.primary.eventStage < eventStageRank b.primary.eventStage := by
  induction h with
  | single hstep =>
    obtain ⟨r, hr, htype, rfl, rfl⟩ := hstep
    obtain ⟨p, -, a, ha, b, hb, hfrom, hto, -, -, -, hrank⟩ := hforward r hr htype
    exact ⟨a, ha, b, hb, hfrom, hto, hrank⟩
  | tail _ hstep ih =>
    obtain ⟨a, ha, b, hb, hfrom, hto, hrank⟩ := ih
    obtain ⟨r, hr, htype, rfl, rfl⟩ := hstep
    obtain ⟨p, -, b', hb', c, hc, hfrom', hto', -, -, -, hrank'⟩ := hforward r hr htype
    obtain rfl := hapart.eq_of_id hb' hb (hfrom'.trans hto.symm)
    exact ⟨a, ha, c, hc, hfrom, hto', hrank.trans hrank'⟩

theorem DeduplicationResult.acyclic_of_forward {result : DeduplicationResult}
    (hapart : IdsApart result.catalysts)
    (hforward : ∀ r ∈ result.relations, r.relationType = .advances → result.LeadsForward r)
    (id : String) : ¬ Relation.TransGen result.Advances id id := by
  intro h
  obtain ⟨a, ha, b, hb, hfrom, hto, hrank⟩ := advances_forward hapart hforward h
  obtain rfl := hapart.eq_of_id ha hb (hfrom.trans hto.symm)
  exact lt_irrefl _ hrank

section
variable [Compatibility] [UnicodeTable] [Sha256] {drafts : List CatalystDraft}

theorem exists_deduplicateCatalysts (h : Mergeable drafts) :
    ∃ result, deduplicateCatalysts drafts = .ok result ∧ Merged drafts result.catalysts ∧
      result.counts = {
        sourceRecordCount := (drafts.map fun d =>
          (d.sourceMention.sourceThemeId, d.sourceMention.sourceHistoryKey)).dedup.length
        themeReactionCount := (drafts.map (·.reaction.reactionKey)).dedup.length
        uniqueCatalystCount := result.catalysts.length
        projectCount := result.projects.length } ∧
      ∃ steps possible, Projected result.catalysts result.projects steps ∧
        possibleDuplicates result.catalysts = .ok possible ∧
          ∀ r, r ∈ result.relations ↔ r ∈ steps ∨ r ∈ possible := by
  obtain ⟨catalysts, hcatalysts⟩ := exists_catalysts h
  have hmerged := merged_of_ok h hcatalysts
  obtain ⟨⟨projects, steps⟩, hprojects⟩ := exists_buildProjects hmerged.apart fun c hc =>
    (h.structured _ ((hmerged.holds c hc _).mp c.primary_mem).1).project_named
  obtain ⟨possible, hpossible⟩ := exists_possibleDuplicates hmerged.apart
  have hok : deduplicateCatalysts drafts = .ok {
      catalysts := catalysts
      projects := projects
      relations := ranked relationRank (steps ++ possible)
      counts := {
        sourceRecordCount := (drafts.map fun d =>
          (d.sourceMention.sourceThemeId, d.sourceMention.sourceHistoryKey)).dedup.length
        themeReactionCount := (drafts.map (·.reaction.reactionKey)).dedup.length
        uniqueCatalystCount := catalysts.length
        projectCount := projects.length }
      datasetHashes := sortedSet (drafts.map (·.datasetHash)) } :=
    bind_eq_ok.mpr ⟨catalysts, hcatalysts, bind_eq_ok.mpr ⟨(projects, steps), hprojects,
      bind_eq_ok.mpr ⟨possible, hpossible, rfl⟩⟩⟩
  refine ⟨_, hok, hmerged, rfl, steps, possible, buildProjects_eq_ok hprojects, hpossible,
    fun r => ?_⟩
  rw [mem_ranked, List.mem_append]

/-- The drafts of one dataset are merged in one way, whatever order they come in, and their
events are kept apart. -/
theorem deduplicateCatalysts_merges (hinj : Function.Injective (hexdigest : String → String))
    (h : Mergeable drafts) :
    ∃ result, (∀ drafts', drafts'.Perm drafts → deduplicateCatalysts drafts' = .ok result) ∧
      result.Merges drafts := by
  obtain ⟨result, hok, hmerged, hcounts, steps, possible, hprojected, hpossible, hrelations⟩ :=
    exists_deduplicateCatalysts h
  have hpossible' := possibleDuplicates_eq_ok hmerged.apart hpossible
  have hadvance : ∀ r ∈ result.relations, r.relationType = .advances → r ∈ steps := by
    intro r hr htype
    refine ((hrelations r).mp hr).resolve_right fun hr => ?_
    rw [(hpossible' r hr).1] at htype
    cases htype
  have hforward : ∀ r ∈ result.relations, r.relationType = .advances → result.LeadsForward r := by
    intro r hr htype
    obtain ⟨-, p, hp, a, ha, b, hb, hpa, hpb, hfrom, hto, hdates, hrank⟩ :=
      hprojected.steps r (hadvance r hr htype)
    exact ⟨p, hp, a, ha, b, hb, hfrom.symm, hto.symm, (hprojected.members p hp _).mpr
      ⟨a, ha, hpa, hfrom.symm⟩,
      (hprojected.members p hp _).mpr ⟨b, hb, hpb, hto.symm⟩, hdates, hrank⟩
  refine ⟨result, fun drafts' hperm => ?_, ?_⟩
  · rw [deduplicateCatalysts_perm hperm ((h.perm hperm).ranksApart hinj), hok]
  · constructor
    · exact fun d hd => hmerged.placed hd
    · have hprojects : result.projects.length = (drafts.filterMap (·.projectId)).toFinset.card := by
        rw [hprojected.length, ← List.card_toFinset]
        congr 1
        ext projectId
        rw [List.mem_toFinset, List.mem_toFinset, hmerged.mem_projectIds hinj h]
      rw [hcounts, hprojects, hmerged.length]
      simp only [List.card_toFinset]
    · intro p hp q hq id hidp hidq
      obtain ⟨c, hc, hcp, rfl⟩ := (hprojected.members p hp id).mp hidp
      obtain ⟨c', hc', hcq, hid⟩ := (hprojected.members q hq _).mp hidq
      obtain rfl := hmerged.apart.eq_of_id hc' hc hid
      exact List.inj_on_of_nodup_map hprojected.apart hp hq
        (Option.some.inj (hcp.symm.trans hcq))
    · exact hforward
    · exact DeduplicationResult.acyclic_of_forward hmerged.apart hforward
    · intro r hr s hs htype htype'
      obtain ⟨-, p, -, a, ha, b, hb, -, -, hfrom, hto, -, hrank⟩ :=
        hprojected.steps r (hadvance r hr htype)
      have hs : s ∈ possible := by
        refine ((hrelations s).mp hs).resolve_left fun hs => ?_
        rw [(hprojected.steps s hs).1] at htype'
        cases htype'
      obtain ⟨-, a', ha', b', hb', hfrom', hto', hstage⟩ := hpossible' s hs
      rw [hfrom, hto, hfrom', hto']
      constructor
      · rintro ⟨heq, heq'⟩
        obtain rfl := hmerged.apart.eq_of_id ha ha' heq
        obtain rfl := hmerged.apart.eq_of_id hb hb' heq'
        rw [hstage] at hrank
        exact lt_irrefl _ hrank
      · rintro ⟨heq, heq'⟩
        obtain rfl := hmerged.apart.eq_of_id ha hb' heq
        obtain rfl := hmerged.apart.eq_of_id hb ha' heq'
        rw [hstage] at hrank
        exact lt_irrefl _ hrank

end

section
variable [Compatibility] [UnicodeTable] [Sha256]

/-- The record that tells of a plant. -/
def plantLabel (day : Nat) : HistoryCompanyRoleLabel :=
  ⟨"master", "1", "history", some (.august day), "revision", "원전 수주"⟩

/-- What a contract is worth. -/
def contractValue : CatalystValueDraft :=
  ⟨.contractValue, "1조", .ofNat 1000000000000, "KRW", some "KRW", .exact, true, 0, 2⟩

/-- A company comes to a stage of a plant on a day of August. -/
def plantDraft (clauseOrder day : Nat) (stockCode : String) (stage : EventStage)
    (values : List CatalystValueDraft) : CatalystDraft :=
  let draft : CatalystDraft := {
    sourceMention :=
      sourceMention (plantLabel day) ⟨clauseOrder, "원전 수주", 0, 5, Nat.zero_lt_succ 4⟩
    rawText := "원전 수주"
    occurredOn := some (.august day)
    knownOn := some (.august day)
    primaryCatalystType := none
    catalystTypes := []
    eventStage := stage
    stageEvidence := ⟨stage, none, none, none⟩
    certainty := .unspecified
    noveltyType := .new
    action := none
    objectText := none
    projectReference := some "원전"
    projectFingerprint := some "fingerprint"
    projectId := some "project_fingerprint"
    participants := []
    companyRoles := [⟨stockCode, .actor, .unknown, 0, 4⟩]
    geographyCodes := []
    values := values
    officiality := .reported
    continuation := false
    evidence := []
    reaction := ⟨"reaction", "1", "원전", "history", some (.august day), .up, [], []⟩
    ontologyVersion := "ontology"
    classificationTransformVersion := "classification"
    companyMasterVersion := "master"
    transformVersion := EVENT_STRUCTURE_TRANSFORM_VERSION
    datasetHash := "dataset"
    contentHash := "content"
    dedupKey := "" }
  { draft with dedupKey := jsonDigest draft.identity }

theorem plantDraft_structured (clauseOrder day : Nat) (stockCode : String) (stage : EventStage)
    (values : List CatalystValueDraft) :
    (plantDraft clauseOrder day stockCode stage values).Structured :=
  ⟨rfl, rfl, fun _ => ⟨rfl, rfl⟩⟩

end

/-- The digests of the three drafts. -/
def plantDigests : List (String × String) :=
  letI : Compatibility := .ascii
  letI : UnicodeTable := .ascii
  letI : Sha256 := .ofTable []
  [((plantDraft 0 3 "000720" .bid []).dedupKey,
      "03d0937b524870bf652507b797b80471e4977da6a6c60ebee1d7bcfe114437ad"),
    ((plantDraft 1 5 "005930" .signed []).dedupKey,
      "5939f7e7fff14e09e4e17790302d289cde3d30eb2be48e60006a77b7b4abf0c2"),
    ((plantDraft 2 5 "005930" .signed [contractValue]).dedupKey,
      "7a85779a189bed1aca3ec4c9c4ef21b59d57dfa3af95b118f0c13112ad18f269")]

/-- A company bids for a plant and another one gets the contract, which is told twice, once with
its value. -/
theorem deduplicateCatalysts_merges_plant :
    letI : Compatibility := .ascii
    letI : UnicodeTable := .ascii
    letI : Sha256 := .ofTable plantDigests
    let drafts := [plantDraft 0 3 "000720" .bid [], plantDraft 1 5 "005930" .signed [],
      plantDraft 2 5 "005930" .signed [contractValue]]
    ∃ result, (∀ drafts', drafts'.Perm drafts → deduplicateCatalysts drafts' = .ok result) ∧
      result.Merges drafts := by
  let _ : Compatibility := .ascii
  let _ : UnicodeTable := .ascii
  let _ : Sha256 := .ofTable plantDigests
  intro drafts
  have hkeys : (drafts.map fun d => takeText 24 d.dedupKey).Nodup := by decide +kernel
  have hdrafts : Mergeable drafts := ⟨by simp [drafts, plantDraft_structured],
    by simp [drafts, CatalystDraft.versions, plantDraft],
    by simp [drafts, plantDraft, sourceMention],
    fun a ha b hb hshort => congrArg _ (List.inj_on_of_nodup_map hkeys ha hb hshort)⟩
  exact deduplicateCatalysts_merges (hexdigest_ofTable_injective _) hdrafts

end Dayjaview.Ontology
