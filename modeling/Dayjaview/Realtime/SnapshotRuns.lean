import Dayjaview.Events.Fingerprint
import Dayjaview.Realtime.Snapshots

/-!
# Runs of the snapshot repository

The four tables tell one story: in every scope the stored snapshots are numbered
in the order they were stored, their times do not go back, and the last one is
the latest. A publication that succeeded once is answered with its snapshot ever
after.
-/

namespace Dayjaview.Realtime

namespace SnapshotRepository

/-- The stored snapshots of a scope, in the order they were stored. -/
def history (r : SnapshotRepository) (scope : SnapshotScope) : List ReadSnapshot :=
  r.snapshots.values.filter fun s => s.scope = scope

variable {r r' : SnapshotRepository} {s : ReadSnapshot} {p : SnapshotPublication}

theorem mem_history {scope : SnapshotScope} :
    s ∈ r.history scope ↔ (∃ id, r.snapshots.get? id = some s) ∧ s.scope = scope := by
  rw [history, List.mem_filter, Dict.mem_values_iff, decide_eq_true_iff]

/-- Two repositories with the same tables. -/
def SameTables (r r' : SnapshotRepository) : Prop :=
  r'.sequences = r.sequences ∧ r'.snapshots = r.snapshots ∧ r'.latestIds = r.latestIds ∧
    r'.receipts = r.receipts

variable [Sha256]

/-- What the snapshot of a publication looks like when it is stored. -/
structure Stores (r : SnapshotRepository) (p : SnapshotPublication) (s : ReadSnapshot)
    (fingerprint : String) : Prop where
  fingerprint : p.fingerprint = .ok fingerprint
  snapshotId : p.snapshotId = .ok s.snapshotId
  scope : s.scope = p.scope
  sequence : s.sequence = (r.sequences.get? p.scope).getD 0 + 1
  asOf : s.asOf = p.asOf
  current : r.checkStale p = .ok ()

theorem store_eq_ok (h : r.store p = .ok (s, r')) :
    ∃ fingerprint, Stores r p s fingerprint ∧
      r' = { r with
        sequences := r.sequences.set p.scope s.sequence
        snapshots := r.snapshots.set s.snapshotId s
        latestIds := r.latestIds.set p.scope s.snapshotId
        receipts := r.receipts.set p.publicationId (fingerprint, s.snapshotId) } := by
  unfold store at h
  obtain ⟨hcurrent, h⟩ := check_bind_eq_ok.mp h
  obtain ⟨fingerprint, hfingerprint, h⟩ := bind_eq_ok.mp h
  obtain ⟨snapshotId, hid, h⟩ := bind_eq_ok.mp h
  obtain ⟨payload, -, h⟩ := bind_eq_ok.mp h
  obtain ⟨snapshot, hsnapshot, h⟩ := bind_eq_ok.mp h
  cases h
  obtain ⟨rfl, -, hscope, hsequence, hasOf⟩ := ReadSnapshot.make_eq_ok hsnapshot
  refine ⟨fingerprint, ⟨hfingerprint, hid, hscope, hsequence, hasOf, hcurrent⟩, ?_⟩
  rw [hsequence]

theorem publish_cases (r : SnapshotRepository) (p : SnapshotPublication) :
    r.SameTables (r.publish p).2 ∨
      ∃ s r', r.receipts.get? p.publicationId = none ∧ r.store p = .ok (s, r') ∧
        r.publish p = (.ok s, r') := by
  unfold publish
  split
  · exact .inl ⟨rfl, rfl, rfl, rfl⟩
  · next hnew =>
    split
    · exact .inl ⟨rfl, rfl, rfl, rfl⟩
    · next s r' hstore =>
      split
      · exact .inl ⟨rfl, rfl, rfl, rfl⟩
      · exact .inr ⟨s, r', hnew, hstore, rfl⟩

theorem publish_of_new (hnew : r.receipts.get? p.publicationId = none)
    (h : (r.publish p).1 = .ok s) :
    ∃ r', r.store p = .ok (s, r') ∧ (r.publish p).2 = r' := by
  unfold publish at h ⊢
  rw [hnew] at h ⊢
  dsimp only at h ⊢
  split at h
  · cases h
  · next s' r' hstore =>
    split at h
    · cases h
    · next hcommit =>
      cases h
      refine ⟨r', hstore, ?_⟩
      rw [if_neg hcommit]

theorem sameTables_of_error {e : Error} (h : (r.publish p).1 = .error e) :
    r.SameTables (r.publish p).2 := by
  obtain hsame | ⟨s, r', -, -, hpublish⟩ := r.publish_cases p
  · exact hsame
  · rw [hpublish] at h
    cases h

/-- A computation does not fail by calling a publication stale. -/
def NotStale {α : Type} (x : Except Error α) : Prop :=
  ∀ e, x = .error e → e.kind ≠ .staleSnapshotPublication

section

omit [Sha256]

theorem notStale_ok {α : Type} (a : α) : NotStale (.ok a) := by
  intro e h
  cases h

theorem NotStale.bind {α β : Type} {x : Except Error α} {f : α → Except Error β} (hx : NotStale x)
    (hf : ∀ a, NotStale (f a)) : NotStale (x >>= f) := by
  intro e h
  rcases bind_eq_error.mp h with h | ⟨a, -, h⟩
  · exact hx e h
  · exact hf a e h

theorem notStale_ensure (p : Prop) [Decidable p] (message : String) :
    NotStale (ensure p message) := by
  unfold ensure
  split
  · exact notStale_ok ()
  · rintro e ⟨⟩
    simp

theorem notStale_copyJsonObject (value : Json) : NotStale (copyJsonObject value) := by
  refine (notStale_ensure _ _).bind fun _ => ?_
  split
  · exact notStale_ok _
  · rintro e ⟨⟩
    simp

theorem notStale_utcIso (t : Datetime) : NotStale t.utcIso := by
  refine NotStale.bind ?_ fun _ => notStale_ok _
  unfold Datetime.astimezoneUtc
  dsimp only
  split
  · exact notStale_ok _
  · rintro e ⟨⟩
    simp

end

theorem notStale_fingerprint (p : SnapshotPublication) : NotStale p.fingerprint :=
  (notStale_utcIso _).bind fun _ => (notStale_utcIso _).bind fun _ => notStale_ok _

section

omit [Sha256]

theorem notStale_snapshotAt (r : SnapshotRepository) (snapshotId : String) :
    NotStale (r.snapshotAt snapshotId) := by
  unfold snapshotAt
  split
  · exact notStale_ok _
  · rintro e ⟨⟩
    simp

theorem notStale_make (given : ReadSnapshot.Fields) : NotStale (ReadSnapshot.make given) := by
  have hchecks : NotStale given.postInit :=
    (notStale_ensure _ _).bind fun _ => (notStale_ensure _ _).bind fun _ =>
      (notStale_copyJsonObject _).bind fun _ => notStale_ok _
  unfold ReadSnapshot.make
  split
  · exact notStale_ok _
  · next e he =>
    rintro e' ⟨⟩
    exact hchecks e he

theorem notStale_versions (f : SnapshotVersions.Fields) : NotStale (SnapshotVersions.make f) := by
  have htext : ∀ value fieldName, NotStale (requireText value fieldName) := fun _ _ =>
    notStale_ensure _ _
  have hchecks : NotStale f.postInit := by
    refine (htext _ _).bind fun _ => (htext _ _).bind fun _ => (htext _ _).bind fun _ =>
      (htext _ _).bind fun _ => ?_
    unfold requireOptionalText
    split
    · exact notStale_ok ()
    · exact htext _ _
  unfold SnapshotVersions.make checked
  split
  · exact notStale_ok _
  · next e he =>
    rintro e' ⟨⟩
    exact hchecks e he

theorem notStale_publication (given : SnapshotPublication.Fields) :
    NotStale (SnapshotPublication.make given) := by
  have hchecks : NotStale given.postInit :=
    (notStale_ensure _ _).bind fun _ => (notStale_ensure _ _).bind fun _ =>
      (notStale_ensure _ _).bind fun _ => (notStale_ensure _ _).bind fun _ =>
        (notStale_copyJsonObject _).bind fun _ => (notStale_copyJsonObject _).bind fun _ =>
          notStale_ok _
  unfold SnapshotPublication.make
  split
  · exact notStale_ok _
  · next e he =>
    rintro e' ⟨⟩
    exact hchecks e he

end

theorem stale_of_publish {e : Error} (h : (r.publish p).1 = .error e)
    (hkind : e.kind = .staleSnapshotPublication) :
    ∃ id latest, r.snapshots.get? id = some latest ∧ p.asOf < latest.asOf := by
  unfold publish at h
  split at h
  · next fingerprint snapshotId _ =>
    have hreplay : NotStale (r.replay p fingerprint snapshotId) := by
      refine (notStale_fingerprint p).bind fun _ => ?_
      split
      · rintro e ⟨⟩
        simp
      · exact notStale_snapshotAt r snapshotId
    exact absurd hkind (hreplay e h)
  · split at h
    · next e' hstore =>
      cases h
      rcases bind_eq_error.mp hstore with hstale | ⟨_, -, hrest⟩
      · unfold checkStale at hstale
        split at hstale
        · cases hstale
        · next latestId _ =>
          rcases bind_eq_error.mp hstale with hmissing | ⟨latest, hlatest, hbehind⟩
          · exact absurd hkind (notStale_snapshotAt r latestId _ hmissing)
          · split at hbehind
            · next hlt =>
              unfold snapshotAt at hlatest
              split at hlatest
              · next snapshot hget =>
                obtain rfl := Except.ok.inj hlatest
                exact ⟨latestId, snapshot, hget, hlt⟩
              · cases hlatest
            · cases hbehind
      · refine absurd hkind (NotStale.bind (notStale_fingerprint p) (fun _ => ?_) _ hrest)
        refine NotStale.bind ((notStale_fingerprint p).bind fun _ => notStale_ok _) fun _ => ?_
        refine (notStale_copyJsonObject _).bind fun _ => ?_
        exact (notStale_make _).bind fun _ => notStale_ok _
    · split at h
      · cases h
        cases hkind
      · cases h

/-- The ids of the snapshots separate the publications. -/
def SeparateIds (published : List SnapshotPublication) : Prop :=
  ∀ p ∈ published, ∀ q ∈ published, ∀ id, p.snapshotId = .ok id → q.snapshotId = .ok id →
    p.publicationId = q.publicationId

structure Consistent (published : List SnapshotPublication) (r : SnapshotRepository) : Prop where
  own : ∀ id s, r.snapshots.get? id = some s → s.snapshotId = id
  source : ∀ id s, r.snapshots.get? id = some s → ∃ p ∈ published, p.snapshotId = .ok id ∧
    (r.receipts.get? p.publicationId).isSome
  numbered : ∀ scope, (r.history scope).map (·.sequence) =
    (List.range (r.history scope).length).map fun i : Nat => (i : Int) + 1
  sequences : ∀ scope, (r.sequences.get? scope).getD 0 = (r.history scope).length
  latestIds : ∀ scope, r.latestIds.get? scope = (r.history scope).getLast?.map (·.snapshotId)
  ordered : ∀ scope, (r.history scope).Pairwise fun a b => a.asOf ≤ b.asOf

theorem consistent_empty : Consistent [] empty :=
  ⟨by simp [empty], by simp [empty], fun scope => rfl, fun scope => rfl, fun scope => rfl,
    fun scope => .nil⟩

theorem Consistent.congr {published published' : List SnapshotPublication}
    (h : Consistent published r) (hsub : published ⊆ published') (hsame : r.SameTables r') :
    Consistent published' r' := by
  obtain ⟨hsequences, hsnapshots, hlatest, hreceipts⟩ := hsame
  have hhistory : ∀ scope, r'.history scope = r.history scope := by
    intro scope
    rw [history, history, hsnapshots]
  constructor
  · rw [hsnapshots]
    exact h.own
  · intro id s hs
    rw [hsnapshots] at hs
    obtain ⟨p, hp, hid, hreceipt⟩ := h.source id s hs
    exact ⟨p, hsub hp, hid, by rwa [hreceipts]⟩
  · intro scope
    rw [hhistory]
    exact h.numbered scope
  · intro scope
    rw [hhistory, hsequences]
    exact h.sequences scope
  · intro scope
    rw [hhistory, hlatest]
    exact h.latestIds scope
  · intro scope
    rw [hhistory]
    exact h.ordered scope

theorem Consistent.get?_snapshotId {published : List SnapshotPublication}
    (h : Consistent published r) {scope : SnapshotScope} (hs : s ∈ r.history scope) :
    r.snapshots.get? s.snapshotId = some s := by
  obtain ⟨⟨id, hid⟩, -⟩ := mem_history.mp hs
  rwa [h.own id s hid]

theorem Consistent.fresh {published : List SnapshotPublication} (h : Consistent published r)
    (hp : p ∈ published) (hids : SeparateIds published)
    (hnew : r.receipts.get? p.publicationId = none) {id : String} (hid : p.snapshotId = .ok id) :
    r.snapshots.get? id = none := by
  cases hs : r.snapshots.get? id with
  | none => rfl
  | some s =>
    obtain ⟨q, hq, hqid, hreceipt⟩ := h.source id s hs
    rw [← hids p hp q hq id hid hqid, hnew] at hreceipt
    cases hreceipt

theorem Consistent.le_asOf {published : List SnapshotPublication} (h : Consistent published r)
    (hcurrent : r.checkStale p = .ok ()) (hs : s ∈ r.history p.scope) : s.asOf ≤ p.asOf := by
  rcases List.eq_nil_or_concat (r.history p.scope) with hnil | ⟨earlier, last, hlast⟩
  · rw [hnil] at hs
    cases hs
  rw [List.concat_eq_append] at hlast
  have hmem : last ∈ r.history p.scope := by simp [hlast]
  -- the latest snapshot of the scope is the last one stored
  have hle : last.asOf ≤ p.asOf := by
    have hid : r.latestIds.get? p.scope = some last.snapshotId := by
      rw [h.latestIds, hlast, List.getLast?_concat]
      rfl
    have hat : r.snapshotAt last.snapshotId = .ok last := by
      rw [snapshotAt, h.get?_snapshotId hmem]
    unfold checkStale at hcurrent
    rw [hid] at hcurrent
    obtain ⟨latest, hlatest, hcurrent⟩ := bind_eq_ok.mp hcurrent
    obtain rfl := Except.ok.inj (hat.symm.trans hlatest)
    split at hcurrent
    · cases hcurrent
    · next hnot =>
      rw [Datetime.le_def]
      exact not_lt.mp fun hlt => hnot (Datetime.lt_def.mpr hlt)
  have hordered := h.ordered p.scope
  rw [hlast] at hs hordered
  rcases List.mem_append.mp hs with hearlier | hsame
  · obtain ⟨-, -, hbefore⟩ := List.pairwise_append.mp hordered
    exact (hbefore s hearlier last (List.mem_singleton.mpr rfl)).trans hle
  · obtain rfl := List.mem_singleton.mp hsame
    exact hle

omit [Sha256] in
theorem history_set (hfresh : r.snapshots.get? s.snapshotId = none) (scope : SnapshotScope) :
    (r.snapshots.set s.snapshotId s).values.filter (fun s => s.scope = scope) =
      if s.scope = scope then r.history scope ++ [s] else r.history scope := by
  rw [Dict.values_set_of_get?_eq_none _ _ hfresh, List.filter_append, history]
  split
  · next hscope => simp [hscope]
  · next hscope => simp [hscope]

theorem Consistent.store {published : List SnapshotPublication} (h : Consistent published r)
    (hp : p ∈ published) (hids : SeparateIds published)
    (hnew : r.receipts.get? p.publicationId = none) (hstore : r.store p = .ok (s, r')) :
    Consistent published r' := by
  obtain ⟨fingerprint, hs, rfl⟩ := store_eq_ok hstore
  have hfresh := h.fresh hp hids hnew hs.snapshotId
  have hsequence : s.sequence = (r.history p.scope).length + 1 := by
    rw [hs.sequence, h.sequences]
  have hhistory := history_set (r := r) hfresh
  rw [hs.scope] at hhistory
  constructor
  · intro id t ht
    rw [Dict.get?_set] at ht
    split at ht
    · next hid =>
      cases ht
      exact hid.symm
    · exact h.own id t ht
  · intro id t ht
    rw [Dict.get?_set] at ht
    split at ht
    · next hid =>
      refine ⟨p, hp, ?_, ?_⟩
      · rw [hid]
        exact hs.snapshotId
      · rw [Dict.get?_set_self]
        rfl
    · obtain ⟨q, hq, hqid, hreceipt⟩ := h.source id t ht
      refine ⟨q, hq, hqid, ?_⟩
      rw [Dict.get?_set]
      split
      · rfl
      · exact hreceipt
  · intro scope
    unfold history
    rw [hhistory]
    split
    · next hscope =>
      subst hscope
      rw [List.map_append, h.numbered, List.length_append, List.length_singleton, List.range_succ,
        List.map_append, List.map_singleton, List.map_singleton, hsequence]
    · exact h.numbered scope
  · intro scope
    unfold history
    rw [hhistory, Dict.get?_set]
    split
    · next hscope =>
      rw [if_pos hscope.symm, Option.getD_some, hsequence, hscope]
      simp
    · next hscope =>
      rw [if_neg fun hsame => hscope hsame.symm]
      exact h.sequences scope
  · intro scope
    unfold history
    rw [hhistory, Dict.get?_set]
    split
    · next hscope =>
      rw [if_pos hscope.symm, List.getLast?_concat]
      rfl
    · next hscope =>
      rw [if_neg fun hsame => hscope hsame.symm]
      exact h.latestIds scope
  · intro scope
    unfold history
    rw [hhistory]
    split
    · next hscope =>
      subst hscope
      refine List.pairwise_append.mpr ⟨h.ordered _, List.pairwise_singleton _ _, ?_⟩
      intro a ha b hb
      obtain rfl := List.mem_singleton.mp hb
      rw [hs.asOf]
      exact h.le_asOf hs.current ha
    · exact h.ordered scope

inductive Call where
  | publish (publication : SnapshotPublication)
  | failNextCommit

/-- The repository after a call. -/
def call (r : SnapshotRepository) : Call → SnapshotRepository
  | .publish publication => (r.publish publication).2
  | .failNextCommit => r.failNextCommit

/-- The repository after some calls. -/
def run (calls : List Call) : SnapshotRepository := calls.foldl call empty

omit [Sha256] in
/-- The publications of some calls. -/
def publications (calls : List Call) : List SnapshotPublication :=
  calls.filterMap fun
    | .publish publication => some publication
    | .failNextCommit => none

omit [Sha256] in
theorem mem_publications {calls : List Call} :
    p ∈ publications calls ↔ Call.publish p ∈ calls := by
  rw [publications, List.mem_filterMap]
  constructor
  · rintro ⟨c, hc, hp⟩
    cases c with
    | publish q =>
      cases hp
      exact hc
    | failNextCommit => cases hp
  · intro hc
    exact ⟨_, hc, rfl⟩

theorem run_snoc (calls : List Call) (c : Call) : run (calls ++ [c]) = (run calls).call c := by
  rw [run, List.foldl_append]
  rfl

theorem Consistent.call {published : List SnapshotPublication} (h : Consistent published r)
    (hids : SeparateIds published) (c : Call) (hc : ∀ p, c = .publish p → p ∈ published) :
    Consistent published (r.call c) := by
  cases c with
  | publish p =>
    obtain hsame | ⟨s, r', hnew, hstore, hpublish⟩ := r.publish_cases p
    · exact h.congr (List.Subset.refl _) hsame
    · rw [SnapshotRepository.call, hpublish]
      exact h.store (hc p rfl) hids hnew hstore
  | failNextCommit => exact h.congr (List.Subset.refl _) ⟨rfl, rfl, rfl, rfl⟩

theorem consistent_run {published : List SnapshotPublication} (hids : SeparateIds published)
    {calls : List Call} (hcalls : publications calls ⊆ published) :
    Consistent published (run calls) := by
  induction calls using List.reverseRecOn with
  | nil => exact consistent_empty.congr (List.nil_subset _) ⟨rfl, rfl, rfl, rfl⟩
  | append_singleton calls c ih =>
    rw [run_snoc]
    refine (ih fun p hp => hcalls ?_).call hids c fun p hp => hcalls ?_
    · rw [mem_publications] at hp ⊢
      exact List.mem_append_left _ hp
    · rw [mem_publications, ← hp]
      simp

/-- A publication is answered with a snapshot. -/
def Answers (r : SnapshotRepository) (p : SnapshotPublication) (s : ReadSnapshot) : Prop :=
  ∃ fingerprint id, p.fingerprint = .ok fingerprint ∧
    r.receipts.get? p.publicationId = some (fingerprint, id) ∧ r.snapshots.get? id = some s

theorem Answers.publish_eq (h : Answers r p s) : r.publish p = (.ok s, r) := by
  obtain ⟨fingerprint, id, hfingerprint, hreceipt, hs⟩ := h
  have hreplay : r.replay p fingerprint id = .ok s := by
    rw [replay, hfingerprint, snapshotAt, hs]
    simp [bind, Except.bind]
  unfold publish
  rw [hreceipt]
  dsimp only
  rw [hreplay]

theorem answers_of_publish (h : (r.publish p).1 = .ok s) : Answers (r.publish p).2 p s := by
  unfold publish at h ⊢
  split at h
  · next fingerprint id hreceipt =>
    obtain ⟨given, hgiven, hreplay⟩ := bind_eq_ok.mp h
    split at hreplay
    · cases hreplay
    · next hsame =>
      rw [not_not] at hsame
      subst hsame
      unfold snapshotAt at hreplay
      split at hreplay
      · next snapshot hs =>
        cases hreplay
        exact ⟨_, id, hgiven, hreceipt, hs⟩
      · cases hreplay
  · next hnew =>
    split at h
    · cases h
    · next snapshot r' hstore =>
      split at h
      · cases h
      · next hcommits =>
        obtain rfl := Except.ok.inj h
        rw [if_neg hcommits]
        obtain ⟨fingerprint, hs, rfl⟩ := store_eq_ok hstore
        exact ⟨fingerprint, snapshot.snapshotId, hs.fingerprint, by simp, by simp⟩

theorem Answers.call {published : List SnapshotPublication} (h : Answers r p s)
    (hconsistent : Consistent published r) (hids : SeparateIds published) (c : Call)
    (hc : ∀ q, c = .publish q → q ∈ published) : Answers (r.call c) p s := by
  obtain ⟨fingerprint, id, hfingerprint, hreceipt, hs⟩ := h
  cases c with
  | failNextCommit => exact ⟨fingerprint, id, hfingerprint, hreceipt, hs⟩
  | publish q =>
    obtain ⟨-, hsnapshots, -, hreceipts⟩ | ⟨t, r', hnew, hstore, hpublish⟩ := r.publish_cases q
    · refine ⟨fingerprint, id, hfingerprint, ?_, ?_⟩
      · rwa [SnapshotRepository.call, hreceipts]
      · rwa [SnapshotRepository.call, hsnapshots]
    · rw [SnapshotRepository.call, hpublish]
      obtain ⟨_, ht, rfl⟩ := store_eq_ok hstore
      have hfresh := hconsistent.fresh (hc q rfl) hids hnew ht.snapshotId
      refine ⟨fingerprint, id, hfingerprint, ?_, ?_⟩
      · rw [Dict.get?_set_of_ne, hreceipt]
        rintro hsame
        rw [← hsame, hreceipt] at hnew
        cases hnew
      · rw [Dict.get?_set_of_ne, hs]
        rintro rfl
        rw [hs] at hfresh
        cases hfresh

theorem Answers.run {published : List SnapshotPublication} (hids : SeparateIds published)
    {before after : List Call} (hcalls : publications (before ++ after) ⊆ published)
    (h : Answers (run before) p s) :
    Answers (SnapshotRepository.run (before ++ after)) p s := by
  induction after using List.reverseRecOn with
  | nil => rwa [List.append_nil]
  | append_singleton after c ih =>
    have hbegins : publications (before ++ after) ⊆ published := by
      intro q hq
      apply hcalls
      rw [mem_publications] at hq ⊢
      rw [← List.append_assoc]
      exact List.mem_append_left _ hq
    rw [← List.append_assoc, run_snoc]
    refine (ih hbegins).call (consistent_run hids hbegins) hids c fun q hq => hcalls ?_
    rw [mem_publications, ← hq]
    simp

/-- After any calls, provided that the ids of the snapshots separate the publications: the snapshots
of every scope are numbered from one in the order they were stored, their times do not go back, and
the last one is the latest; a publication that succeeded is answered with its snapshot again and
changes nothing; and a publication that raises keeps all tables. -/
theorem run_consistent (calls : List Call) (hids : SeparateIds (publications calls)) :
    (∀ streamId topic params, params.isFinite = true →
      let history := (run calls).history (streamId, topic, opaqueId "params" params.canonical)
      history.map (·.sequence) = (List.range history.length).map (fun i : Nat => (i : Int) + 1) ∧
        history.Pairwise (fun a b => a.asOf ≤ b.asOf) ∧
        (run calls).latest streamId topic params = .ok history.getLast?) ∧
    (∀ before p after s, calls = before ++ .publish p :: after →
      ((run before).publish p).1 = .ok s → (run calls).publish p = (.ok s, run calls)) ∧
    (∀ p error, ((run calls).publish p).1 = .error error →
      (run calls).SameTables ((run calls).publish p).2) := by
  have hconsistent : Consistent (publications calls) (run calls) :=
    consistent_run hids (List.Subset.refl _)
  refine ⟨fun streamId topic params hfinite => ?_, ?_, fun p error => sameTables_of_error⟩
  · intro history
    refine ⟨hconsistent.numbered _, hconsistent.ordered _, ?_⟩
    refine check_bind_eq_ok.mpr ⟨ensure_eq_ok.mpr hfinite, ?_⟩
    rw [hconsistent.latestIds]
    cases hlast : history.getLast? with
    | none => rfl
    | some last =>
      have hat : (run calls).snapshotAt last.snapshotId = .ok last := by
        rw [snapshotAt, hconsistent.get?_snapshotId (List.mem_of_getLast? hlast)]
      exact bind_eq_ok.mpr ⟨last, hat, rfl⟩
  · rintro before p after s rfl hpublish
    have hanswers : Answers (run (before ++ [.publish p])) p s := by
      rw [run_snoc]
      exact answers_of_publish hpublish
    have hcalls : before ++ Call.publish p :: after = (before ++ [.publish p]) ++ after := by simp
    rw [hcalls] at hids ⊢
    exact (hanswers.run hids (List.Subset.refl _)).publish_eq

/-- The fields of an empty board at five past nine. -/
def emptyBoardFields : SnapshotPublication.Fields where
  publicationId := "stream-1:rank:1"
  streamId := "stream-1"
  topic := .themeRank
  params := .obj [("limit", .int 50)]
  marketDate := Events.fivePastNine.date
  generatedAt := Events.fivePastNine
  asOf := Events.fivePastNine
  dataStatus := .live
  qualityFlags := []
  payload := .obj [("items", .arr [])]
  versions := ⟨⟨"1", "calc-1", "rank-1", "members-1", none⟩, by decide⟩

/-- An empty board at five past nine. -/
def emptyBoard : SnapshotPublication := ⟨emptyBoardFields, emptyBoardFields, by decide⟩

omit [Sha256] in
/-- A board that is published, and again after a commit failure was called for. -/
theorem run_consistent_emptyBoard :
    letI : Sha256 := .ofTable []
    let calls := [Call.publish emptyBoard, .failNextCommit, .publish emptyBoard]
    let scope :=
      ("stream-1", SnapshotTopic.themeRank, opaqueId "params" emptyBoard.params.canonical)
    ((run calls).history scope).map (·.sequence) =
        (List.range ((run calls).history scope).length).map (fun i : Nat => (i : Int) + 1) ∧
      ∃ s, (empty.publish emptyBoard).1 = .ok s ∧
        (run calls).publish emptyBoard = (.ok s, run calls) := by
  have hids : @SeparateIds (.ofTable []) (publications
      [Call.publish emptyBoard, .failNextCommit, .publish emptyBoard]) := by
    intro p hp q hq id _ _
    simp only [publications, List.filterMap_cons, List.filterMap_nil, List.mem_cons,
      List.not_mem_nil, or_false, or_self] at hp hq
    rw [hp, hq]
  have hstored : (@publish (.ofTable []) empty emptyBoard).1.toOption.isSome = true := by
    decide +kernel
  obtain ⟨s, hs⟩ := Option.isSome_iff_exists.mp hstored
  obtain ⟨hscopes, hreplays, -⟩ := @run_consistent (.ofTable [])
    [Call.publish emptyBoard, .failNextCommit, .publish emptyBoard] hids
  refine ⟨(hscopes "stream-1" .themeRank emptyBoard.params (by decide)).1, s,
    toOption_eq_some.mp hs, ?_⟩
  exact hreplays [] emptyBoard [.failNextCommit, .publish emptyBoard] s rfl (toOption_eq_some.mp hs)

end SnapshotRepository

end Dayjaview.Realtime
