import Dayjaview.Kiwoom.Subscriptions

/-!
# Runs of the subscription manager

The deadline of a stock is the time it fell out of the best demands plus the
cooldown, and every subscribed stock without a deadline was among the best ones
of the last applied plan. So a stock that is given up has cooled down, or there
was no room for it.
-/

namespace Dayjaview.Kiwoom

/-- Every demand is kept under its stock. -/
def Keyed (demands : Dict String SubscriptionDemand) : Prop :=
  ∀ stockId demand, demands.get? stockId = some demand → demand.stockId = stockId

theorem keyed_empty : Keyed .empty := by
  intro stockId demand h
  cases h

variable {demands : Dict String SubscriptionDemand} {stockId : String}

theorem Keyed.set (h : Keyed demands) {demand : SubscriptionDemand}
    (hdemand : demand.stockId = stockId) :
    Keyed (demands.set stockId demand) := by
  intro stockId' demand' h'
  rw [Dict.get?_set] at h'
  split at h'
  · next hsame =>
    cases h'
    rw [hdemand, hsame]
  · exact h stockId' demand' h'

theorem Keyed.update (h : Keyed demands) {entries : List (String × SubscriptionDemand)}
    (hentries : ∀ e ∈ entries, e.2.stockId = e.1) :
    Keyed (entries.foldl (fun d e => d.set e.1 e.2) demands) := by
  induction entries generalizing demands with
  | nil => exact h
  | cons e entries ih =>
    refine ih (h.set (hentries e (List.mem_cons_self ..))) fun e' he' => ?_
    exact hentries e' (List.mem_cons_of_mem _ he')

theorem Keyed.addDemand (h : Keyed demands) (demand : SubscriptionDemand) :
    Keyed (addDemand demands demand) ∧ ∀ stockId,
      stockId ∈ (addDemand demands demand).keys ↔ stockId ∈ demands.keys ∨ demand.stockId =
      stockId := by
  have hset : ∀ joined : SubscriptionDemand, joined.stockId = demand.stockId →
      Keyed (demands.set demand.stockId joined) ∧ ∀ stockId,
        stockId ∈ (demands.set demand.stockId joined).keys ↔
          stockId ∈ demands.keys ∨ demand.stockId = stockId := by
    intro joined hjoined
    refine ⟨h.set hjoined, fun stockId => ?_⟩
    rw [Dict.mem_keys_iff, Dict.mem_keys_iff, Dict.get?_set]
    split
    · next hsame => simp [hsame]
    · next hother => simp [Ne.symm hother]
  unfold Kiwoom.addDemand
  split
  · exact hset demand rfl
  · next rows hrows =>
    have hstock : rows.stockId = demand.stockId := h _ _ hrows
    exact hset (rows.join demand) hstock

theorem aggregateDemands_spec (demands : List SubscriptionDemand) :
    Keyed (aggregateDemands demands) ∧
      ∀ stockId, stockId ∈ (aggregateDemands demands).keys ↔ ∃ d ∈ demands, d.stockId =
      stockId := by
  have hfrom : ∀ normalized : Dict String SubscriptionDemand, Keyed normalized →
      Keyed (demands.foldl addDemand normalized) ∧ ∀ stockId,
        stockId ∈ (demands.foldl addDemand normalized).keys ↔
          stockId ∈ normalized.keys ∨ ∃ d ∈ demands, d.stockId = stockId := by
    induction demands with
    | nil =>
      intro normalized h
      exact ⟨h, by simp⟩
    | cons demand demands ih =>
      intro normalized h
      obtain ⟨hkeyed, hkeys⟩ := h.addDemand demand
      obtain ⟨hkept, hall⟩ := ih _ hkeyed
      refine ⟨hkept, fun stockId => ?_⟩
      rw [List.foldl_cons, hall, hkeys, or_assoc]
      simp
  obtain ⟨hkeyed, hkeys⟩ := hfrom .empty keyed_empty
  exact ⟨hkeyed, fun stockId => by rw [aggregateDemands, hkeys]; simp⟩

theorem DemandPriority.value_lt (p : DemandPriority) : p.value < 6 := by cases p <;> decide

theorem rankOf_injective {a b : Option SubscriptionDemand} {s t : String}
    (ha : ∀ d ∈ a, d.stockId = s) (hb : ∀ d ∈ b, d.stockId = t) (h : rankOf a s = rankOf b t) :
    s = t := by
  cases a with
  | none =>
    cases b with
    | none => simpa [rankOf] using h
    | some d =>
      simp only [rankOf, rankKey, toLex_inj, Prod.mk.injEq] at h
      have hlt := d.priority.value_lt
      omega
  | some d =>
    cases b with
    | none =>
      simp only [rankOf, rankKey, toLex_inj, Prod.mk.injEq] at h
      have hlt := d.priority.value_lt
      omega
    | some d' =>
      simp only [rankOf, rankKey, toLex_inj, Prod.mk.injEq] at h
      rw [← ha d rfl, ← hb d' rfl]
      exact h.2.2.2

namespace SubscriptionManager

/-- A stock is among the best demands exactly when it is demanded and fewer stocks than the target
are demanded more urgently. -/
theorem mem_desired_iff (m : SubscriptionManager) (demands : List SubscriptionDemand)
    (stockId : String) :
    stockId ∈ m.desired (aggregateDemands demands) ↔
      (∃ d ∈ demands, d.stockId = stockId) ∧
        ((aggregateDemands demands).keys.filter fun other =>
          rankOf ((aggregateDemands demands).get? other) other <
            rankOf ((aggregateDemands demands).get? stockId) stockId).length < m.targetLimit := by
  obtain ⟨hkeyed, hkeys⟩ := aggregateDemands_spec demands
  rw [← hkeys]
  refine mem_best_iff fun a _ b _ hrank => rankOf_injective ?_ ?_ hrank
  · exact fun d hd => hkeyed a d hd
  · exact fun d hd => hkeyed b d hd

theorem get?_runningDeadlines (m : SubscriptionManager) (desired : List String) (now : Datetime)
    (stockId : String) :
    (m.runningDeadlines desired now).get? stockId =
      if stockId ∈ desired ∨ ∃ deadline ∈ m.retainedUntil.get? stockId, deadline ≤
          now.instant then none
      else m.retainedUntil.get? stockId := by
  rw [runningDeadlines, Dict.get?_foldl_erase
    (fun stockId => stockId ∈ desired ∨
      ∃ deadline ∈ m.retainedUntil.get? stockId, deadline ≤ now.instant)]
  by_cases hkey : stockId ∈ m.retainedUntil.keys
  · simp [hkey]
  · have hnone : m.retainedUntil.get? stockId = none := by
      rw [Dict.mem_keys_iff] at hkey
      simpa using hkey
    rw [if_neg (fun h => hkey h.1), hnone]
    split <;> rfl

variable {m : SubscriptionManager} {now : Datetime} {stockId : String}

theorem mem_expiredCooldown {desired : List String} :
    stockId ∈ m.expiredCooldown desired now ↔ stockId ∉ desired ∧
      ∃ deadline ∈ m.retainedUntil.get? stockId, deadline ≤ now.instant := by
  rw [expiredCooldown, List.mem_filter, decide_eq_true_iff]
  constructor
  · exact fun h => h.2
  · intro h
    refine ⟨?_, h⟩
    obtain ⟨deadline, hdeadline, -⟩ := h.2
    rw [Dict.mem_keys_iff, hdeadline]
    rfl

/-- The next deadline of a stock. -/
inductive NextDeadline (m : SubscriptionManager) (desired : List String) (now : Datetime)
    (stockId : String) : Option Int → Prop
  | desired (h : stockId ∈ desired) : NextDeadline m desired now stockId none
  /-- The time of the stock is over. -/
  | expired (hout : stockId ∉ desired) (deadline : Int)
      (hdeadline : m.retainedUntil.get? stockId = some deadline) (hover : deadline ≤ now.instant) :
      NextDeadline m desired now stockId none
  | running (hout : stockId ∉ desired) (deadline : Int)
      (hdeadline : m.retainedUntil.get? stockId = some deadline)
      (hrunning : now.instant < deadline) :
      NextDeadline m desired now stockId (some deadline)
  | fellOut (hout : stockId ∉ desired) (hnone : m.retainedUntil.get? stockId = none)
      (hcurrent : stockId ∈ m.current) :
      NextDeadline m desired now stockId (some (now.instant + m.cooldown))
  /-- The stock is not subscribed. -/
  | absent (hout : stockId ∉ desired) (hnone : m.retainedUntil.get? stockId = none)
      (hcurrent : stockId ∉ m.current) : NextDeadline m desired now stockId none

theorem nextDeadline (m : SubscriptionManager) (desired : List String) (now : Datetime)
    (stockId : String) :
    NextDeadline m desired now stockId ((m.nextDeadlines desired now).get? stockId) := by
  rw [nextDeadlines, Dict.get?_foldl_setMissing
    (fun stockId => stockId ∉ desired ∧ stockId ∉ m.expiredCooldown desired now)]
  simp only [get?_runningDeadlines, mem_expiredCooldown]
  by_cases hdesired : stockId ∈ desired
  · simp only [hdesired, true_or, if_true, not_true_eq_false, false_and, and_false, if_false]
    exact .desired hdesired
  · cases hretained : m.retainedUntil.get? stockId with
    | none =>
      by_cases hcurrent : stockId ∈ m.current
      · simp only [hdesired, hcurrent, Option.mem_def, reduceCtorEq, false_and, exists_false,
          or_self, if_false, not_false_eq_true, and_self, and_false, if_true]
        exact .fellOut hdesired hretained hcurrent
      · simp only [hdesired, hcurrent, Option.mem_def, reduceCtorEq, false_and, exists_false,
          or_self, if_false]
        exact .absent hdesired hretained hcurrent
    | some deadline =>
      by_cases hover : deadline ≤ now.instant
      · simp only [hdesired, hover, Option.mem_def, Option.some.injEq, exists_eq_left', or_true,
          if_true, not_false_eq_true, and_self, not_true_eq_false, and_false, if_false]
        exact .expired hdesired deadline hretained hover
      · simp only [hdesired, hover, Option.mem_def, Option.some.injEq, exists_eq_left', or_self,
          if_false, reduceCtorEq, false_and, and_false]
        exact .running hdesired deadline hretained (not_le.mp hover)

/-- The subscriptions of the next applied plan. -/
def nextSubscriptions (m : SubscriptionManager) (demands : Dict String SubscriptionDemand)
    (now : Datetime) : List String :=
  let stable := m.current.filter fun stockId =>
    stockId ∈ m.desired demands ∨ stockId ∈ m.cooling (m.desired demands) now
  stable ++ (m.desired demands).filter fun stockId => stockId ∉ stable

theorem mem_cooling_current {desired : List String} (h : stockId ∈ m.cooling desired now) :
    stockId ∈ m.current ∧ stockId ∉ desired ∧
      now.instant < ((m.nextDeadlines desired now).get? stockId).getD now.instant := by
  have hmem := mem_of_mem_best h
  rw [List.mem_filter, decide_eq_true_iff] at hmem
  exact hmem

theorem mem_nextSubscriptions {demands : Dict String SubscriptionDemand} :
    stockId ∈ m.nextSubscriptions demands now ↔
      stockId ∈ m.desired demands ∨ stockId ∈ m.cooling (m.desired demands) now := by
  simp only [nextSubscriptions, List.mem_append, List.mem_filter, decide_eq_true_iff]
  constructor
  · rintro (⟨-, h⟩ | ⟨h, -⟩)
    · exact h
    · exact .inl h
  · intro h
    by_cases hcurrent : stockId ∈ m.current
    · exact .inl ⟨hcurrent, h⟩
    · rcases h with hdesired | hcooling
      · exact .inr ⟨hdesired, fun hstable => hcurrent hstable.1⟩
      · exact absurd (mem_cooling_current hcooling).1 hcurrent

theorem nodup_desired (m : SubscriptionManager) (demands : Dict String SubscriptionDemand) :
    (m.desired demands).Nodup := nodup_best demands.keys_nodup

theorem nodup_nextSubscriptions (h : m.current.Nodup) (demands : Dict String SubscriptionDemand)
    (now : Datetime) :
    (m.nextSubscriptions demands now).Nodup := by
  refine List.nodup_append.mpr ⟨h.filter _, (m.nodup_desired demands).filter _, ?_⟩
  rintro a ha b hb rfl
  exact (of_decide_eq_true (List.mem_filter.mp hb).2) ha

theorem length_desired_le (m : SubscriptionManager) (demands : Dict String SubscriptionDemand) :
    (m.desired demands).length ≤ m.hardLimit := by
  have hle : (m.desired demands).length ≤ m.targetLimit := length_best_le
  exact hle.trans m.valid.2.1

theorem length_nextSubscriptions_le (h : m.current.Nodup) (demands : Dict String SubscriptionDemand)
    (now : Datetime) :
    (m.nextSubscriptions demands now).length ≤ m.hardLimit := by
  have hsub : m.nextSubscriptions demands now ⊆
      m.desired demands ++ m.cooling (m.desired demands) now := by
    intro stockId hmem
    exact List.mem_append.mpr (mem_nextSubscriptions.mp hmem)
  have hlength := ((nodup_nextSubscriptions h demands now).subperm hsub).length_le
  have hdesired := m.length_desired_le demands
  have hcooling : (m.cooling (m.desired demands) now).length ≤
      m.hardLimit - (m.desired demands).length := length_best_le
  rw [List.length_append] at hlength
  omega

theorem coalescedPlan_ok (hnodup : m.current.Nodup) (hbounded : m.current.length ≤ m.hardLimit)
    (demands : Dict String SubscriptionDemand) (now : Datetime) :
    ∃ plan, m.coalescedPlan demands now = .ok plan ∧ plan.coalesced = true :=
  ⟨_, checked_of_ok (SubscriptionPlan.postInit_eq_ok.mpr ⟨hbounded, hnodup⟩), rfl⟩

structure Admits (m : SubscriptionManager) (demands : Dict String SubscriptionDemand)
    (now : Datetime) (plan : SubscriptionPlan) (m' : SubscriptionManager) : Prop where
  subscriptions : plan.subscriptions = m.nextSubscriptions demands now
  current : m'.current = plan.subscriptions
  added : ∀ stockId, stockId ∈ plan.added ↔ stockId ∈ plan.subscriptions ∧ stockId ∉ m.current
  removed : ∀ stockId, stockId ∈ plan.removed ↔ stockId ∈ m.current ∧ stockId ∉ plan.subscriptions
  supplement : ∀ stockId,
    stockId ∈ plan.snapshotSupplement ↔ stockId ∈ demands.keys ∧ stockId ∉ plan.subscriptions
  deadlines : ∀ stockId, m'.retainedUntil.get? stockId =
    if stockId ∈ m.current ∧ stockId ∉ plan.subscriptions then none
    else (m.nextDeadlines (m.desired demands) now).get? stockId
  lastDemands : m'.lastDemands = demands.entries.foldl (fun d e => d.set e.1 e.2) m.lastDemands
  settings : m'.toSubscriptionSettings = m.toSubscriptionSettings

theorem apply_admits (h : m.current.Nodup) (demands : Dict String SubscriptionDemand)
    (now : Datetime) :
    ∃ plan, (m.apply demands now).1 = .ok plan ∧ plan.coalesced = false ∧
      Admits m demands now plan (m.apply demands now).2 := by
  refine ⟨_, checked_of_ok (SubscriptionPlan.postInit_eq_ok.mpr
    ⟨length_nextSubscriptions_le h demands now, nodup_nextSubscriptions h demands now⟩), rfl, ?_⟩
  refine ⟨rfl, rfl, fun stockId => ?_, fun stockId => ?_, fun stockId => ?_, fun stockId => ?_,
    rfl, rfl⟩
  · rw [mem_sortedTuple, List.mem_filter, decide_eq_true_iff]
  · rw [mem_sortedTuple, List.mem_filter, decide_eq_true_iff]
  · rw [List.mem_filter, rankedDemands, mem_ranked, decide_eq_true_iff]
  · have herase : ∀ (ks : List String) (d : Dict String Int),
        (ks.foldl Dict.erase d).get? stockId = if stockId ∈ ks then none else d.get? stockId := by
      intro ks d
      simpa using Dict.get?_foldl_erase (fun _ => True) ks d stockId
    refine (herase _ _).trans ?_
    simp only [mem_sortedTuple, List.mem_filter, decide_eq_true_iff]

end SubscriptionManager

structure SubscriptionCall where
  demands : List SubscriptionDemand
  now : Datetime
  force : Bool

/-- A manager with the time and the best demands of every applied plan. -/
structure SubscriptionRun where
  manager : SubscriptionManager
  passes : List (Datetime × List String)

namespace SubscriptionRun

/-- The best demands of a call. -/
def wanted (r : SubscriptionRun) (c : SubscriptionCall) : List String :=
  r.manager.desired (aggregateDemands c.demands)

def step (r : SubscriptionRun) (c : SubscriptionCall) : SubscriptionRun where
  manager := (r.manager.reconcile c.demands c.now c.force).2
  passes := if r.manager.Coalesces c.now c.force then r.passes else r.passes ++
  [(c.now, r.wanted c)]

/-- Make some calls to a new manager. -/
def run (settings : SubscriptionSettings) (calls : List SubscriptionCall) : SubscriptionRun :=
  calls.foldl step ⟨.new settings, []⟩

end SubscriptionRun

/-- A stock was among the best demands of an applied plan, and has been out of them since a time. -/
def FellOut (passes : List (Datetime × List String)) (stockId : String) (t : Datetime) : Prop :=
  ∃ earlier wanted out later, passes = earlier ++ wanted :: out :: later ∧ stockId ∈ wanted.2 ∧
    out.1 = t ∧ ∀ pass ∈ out :: later, stockId ∉ pass.2

theorem FellOut.snoc {passes : List (Datetime × List String)} {t : Datetime}
    (h : FellOut passes stockId t) {pass : Datetime × List String} (hpass : stockId ∉ pass.2) :
    FellOut (passes ++ [pass]) stockId t := by
  obtain ⟨earlier, wanted, out, later, rfl, hwanted, htime, hout⟩ := h
  refine ⟨earlier, wanted, out, later ++ [pass], by simp, hwanted, htime, ?_⟩
  intro pass' hpass'
  rw [← List.cons_append, List.mem_append, List.mem_singleton] at hpass'
  rcases hpass' with hpass' | rfl
  · exact hout pass' hpass'
  · exact hpass

theorem fellOut_snoc {passes : List (Datetime × List String)} {last : Datetime × List String}
    (hlast : last ∈ passes.getLast?) (hwanted : stockId ∈ last.2) {pass : Datetime × List String}
    (hpass : stockId ∉ pass.2) :
    FellOut (passes ++ [pass]) stockId pass.1 := by
  obtain ⟨earlier, rfl⟩ := List.getLast?_eq_some_iff.mp hlast
  refine ⟨earlier, last, pass, [], by simp, hwanted, rfl, ?_⟩
  intro pass' hpass'
  obtain rfl := List.mem_singleton.mp hpass'
  exact hpass

namespace SubscriptionRun

open SubscriptionManager

/-- What the manager knows of the applied plans. -/
structure Sound (settings : SubscriptionSettings) (r : SubscriptionRun) : Prop where
  settings : r.manager.toSubscriptionSettings = settings
  nodup : r.manager.current.Nodup
  bounded : r.manager.current.length ≤ r.manager.hardLimit
  keyed : Keyed r.manager.lastDemands
  wanted : ∀ stockId ∈ r.manager.current, r.manager.retainedUntil.get? stockId = none →
    ∃ last ∈ r.passes.getLast?, stockId ∈ last.2
  deadlines : ∀ stockId deadline, r.manager.retainedUntil.get? stockId = some deadline →
    ∃ t, FellOut r.passes stockId t ∧ deadline = t.instant + r.manager.cooldown

theorem sound_new (settings : SubscriptionSettings) : Sound settings ⟨.new settings, []⟩ where
  settings := rfl
  nodup := List.nodup_nil
  bounded := Nat.zero_le _
  keyed := keyed_empty
  wanted stockId h := by cases h
  deadlines stockId deadline h := by cases h

/-- The manager of a call knows its demands. -/
def informed (r : SubscriptionRun) (c : SubscriptionCall) : SubscriptionManager :=
  { r.manager with pendingDemands := aggregateDemands c.demands }

theorem reconcile_eq (r : SubscriptionRun) (c : SubscriptionCall) :
    r.manager.reconcile c.demands c.now c.force =
      if r.manager.Coalesces c.now c.force then
        ((r.informed c).coalescedPlan (aggregateDemands c.demands) c.now, r.informed c)
      else (r.informed c).apply (aggregateDemands c.demands) c.now := rfl

theorem Sound.step {settings : SubscriptionSettings} {r : SubscriptionRun} (h : Sound settings r)
    (c : SubscriptionCall) : Sound settings (r.step c) := by
  by_cases hcoalesces : r.manager.Coalesces c.now c.force
  · have hstep : r.step c = ⟨r.informed c, r.passes⟩ := by
      rw [SubscriptionRun.step, if_pos hcoalesces, r.reconcile_eq, if_pos hcoalesces]
    rw [hstep]
    exact ⟨h.settings, h.nodup, h.bounded, h.keyed, h.wanted, h.deadlines⟩
  have hstep : r.step c = ⟨((r.informed c).apply (aggregateDemands c.demands) c.now).2,
      r.passes ++ [(c.now, r.wanted c)]⟩ := by
    rw [SubscriptionRun.step, if_neg hcoalesces, r.reconcile_eq, if_neg hcoalesces]
  rw [hstep]
  obtain ⟨plan, -, -, hdecides⟩ := apply_admits (m := r.informed c) h.nodup
    (aggregateDemands c.demands) c.now
  have hcurrent := hdecides.current.trans hdecides.subscriptions
  have hcooldown := congrArg SubscriptionSettings.cooldown hdecides.settings
  have hhard := congrArg SubscriptionSettings.hardLimit hdecides.settings
  obtain ⟨hkeyed, -⟩ := aggregateDemands_spec c.demands
  constructor
  · exact hdecides.settings.trans h.settings
  · rw [hcurrent]
    exact nodup_nextSubscriptions (m := r.informed c) h.nodup _ _
  · rw [hcurrent, hhard]
    exact length_nextSubscriptions_le (m := r.informed c) h.nodup _ _
  · rw [hdecides.lastDemands]
    refine h.keyed.update fun e he => hkeyed e.1 e.2 ?_
    exact (aggregateDemands c.demands).mem_entries_iff.mp he
  · intro stockId hstock hnone
    refine ⟨(c.now, r.wanted c), List.getLast?_concat, ?_⟩
    dsimp only at hstock hnone
    rw [hdecides.current] at hstock
    rw [hdecides.deadlines, if_neg fun hgone => hgone.2 hstock] at hnone
    rw [hdecides.subscriptions, mem_nextSubscriptions] at hstock
    rcases hstock with hdesired | hcooling
    · exact hdesired
    · have hlate := (mem_cooling_current hcooling).2.2
      rw [hnone, Option.getD_none] at hlate
      exact absurd hlate (lt_irrefl _)
  · intro stockId deadline hdeadline
    dsimp only at hdeadline ⊢
    rw [hdecides.deadlines] at hdeadline
    split at hdeadline
    · cases hdeadline
    have hnext := (r.informed c).nextDeadline (r.wanted c) c.now stockId
    rw [show ((r.informed c).nextDeadlines (r.wanted c) c.now).get? stockId = some deadline from
      hdeadline] at hnext
    rw [hcooldown]
    cases hnext with
    | running hout _ hretained _ =>
      obtain ⟨t, ht, hcount⟩ := h.deadlines stockId deadline hretained
      exact ⟨t, ht.snoc hout, hcount⟩
    | fellOut hout hnone hmem =>
      obtain ⟨last, hlast, hwanted⟩ := h.wanted stockId hmem hnone
      exact ⟨c.now, fellOut_snoc hlast hwanted hout, rfl⟩

theorem sound_run (settings : SubscriptionSettings) (calls : List SubscriptionCall) :
    Sound settings (run settings calls) := by
  have hfrom : ∀ r, Sound settings r → Sound settings (calls.foldl SubscriptionRun.step r) := by
    induction calls with
    | nil => exact fun r h => h
    | cons c calls ih => exact fun r h => ih _ (h.step c)
  exact hfrom _ (sound_new settings)

/-- A stock that is given up has cooled down, or all the room is taken by wanted stocks and by
stocks that cool with a better rank. -/
theorem Sound.given_up {settings : SubscriptionSettings} {r : SubscriptionRun}
    (h : Sound settings r)
    (c : SubscriptionCall) {stockId : String} (hcurrent : stockId ∈ r.manager.current)
    (hgone : stockId ∉ (r.informed c).nextSubscriptions (aggregateDemands c.demands) c.now) :
    (∃ t, FellOut (r.passes ++ [(c.now, r.wanted c)]) stockId t ∧
        t.instant + r.manager.cooldown ≤ c.now.instant) ∨
      (((r.informed c).nextSubscriptions (aggregateDemands c.demands) c.now).length =
          r.manager.hardLimit ∧
        ∀ other ∈ (r.informed c).nextSubscriptions (aggregateDemands c.demands) c.now,
          other ∈ r.wanted c ∨ (other ∈ r.manager.current ∧
            (r.informed c).historicalRank other < (r.informed c).historicalRank stockId)) := by
  rw [mem_nextSubscriptions, not_or] at hgone
  obtain ⟨hout, hcold⟩ := hgone
  by_cases hcandidate : c.now.instant <
      (((r.informed c).nextDeadlines (r.wanted c) c.now).get? stockId).getD c.now.instant
  · -- the stock still cools, so there is no room for it
    right
    have hmem : stockId ∈ (r.informed c).current.filter fun stockId => stockId ∉ r.wanted c ∧
        c.now.instant <
          (((r.informed c).nextDeadlines (r.wanted c) c.now).get? stockId).getD c.now.instant :=
      List.mem_filter.mpr ⟨hcurrent, decide_eq_true ⟨hout, hcandidate⟩⟩
    have hfull : ((r.informed c).cooling (r.wanted c) c.now).length =
        r.manager.hardLimit - (r.wanted c).length := length_best hmem hcold
    constructor
    · have hnodup : (r.wanted c ++ (r.informed c).cooling (r.wanted c) c.now).Nodup := by
        refine List.nodup_append.mpr ⟨nodup_desired _ _, nodup_best (h.nodup.filter _), ?_⟩
        rintro a ha b hb rfl
        exact (mem_cooling_current hb).2.1 ha
      have hsub : r.wanted c ++ (r.informed c).cooling (r.wanted c) c.now ⊆
          (r.informed c).nextSubscriptions (aggregateDemands c.demands) c.now := by
        intro other hother
        exact mem_nextSubscriptions.mpr (List.mem_append.mp hother)
      have hlength := (hnodup.subperm hsub).length_le
      have hle := length_nextSubscriptions_le (m := r.informed c) h.nodup
        (aggregateDemands c.demands) c.now
      have hwanted : (r.wanted c).length ≤ r.manager.hardLimit := length_desired_le _ _
      rw [List.length_append, hfull] at hlength
      have hhard : (r.informed c).hardLimit = r.manager.hardLimit := rfl
      omega
    · intro other hother
      rcases mem_nextSubscriptions.mp hother with hwanted | hcooling
      · exact .inl hwanted
      · refine .inr ⟨(mem_cooling_current hcooling).1, ?_⟩
        refine lt_of_le_of_ne (rank_le_of_mem_best hcooling hmem hcold) fun hsame => ?_
        obtain ⟨hkeyed, -⟩ := aggregateDemands_spec c.demands
        have hstock : ∀ s, ∀ d ∈ ((aggregateDemands c.demands).get? s).or
            (r.manager.lastDemands.get? s), d.stockId = s := by
          intro s d hd
          rcases Option.or_eq_some_iff.mp hd with hd | ⟨-, hd⟩
          · exact hkeyed s d hd
          · exact h.keyed s d hd
        have hequal := rankOf_injective (hstock other) (hstock stockId) hsame
        rw [hequal] at hcooling
        exact hcold hcooling
  · left
    have hnext := (r.informed c).nextDeadline (r.wanted c) c.now stockId
    revert hcandidate
    generalize ((r.informed c).nextDeadlines (r.wanted c) c.now).get? stockId = next at hnext ⊢
    cases hnext with
    | desired hwanted => exact absurd hwanted hout
    | absent _ _ hmissing => exact absurd hcurrent hmissing
    | expired _ deadline hretained hover =>
      intro _
      obtain ⟨t, ht, hcount⟩ := h.deadlines stockId deadline hretained
      exact ⟨t, ht.snoc hout, hcount ▸ hover⟩
    | running _ deadline hretained hrunning => exact fun hnot => absurd hrunning hnot
    | fellOut _ hnone _ =>
      intro hover
      obtain ⟨last, hlast, hwanted⟩ := h.wanted stockId hcurrent hnone
      exact ⟨c.now, fellOut_snoc hlast hwanted hout, not_lt.mp hover⟩

/-- In every run of calls, with the next call: there is a plan, and unless the call came too early
the plan has no more subscriptions than the hard limit, none of them twice, and they are the current
ones afterwards; the wanted stocks, that is those demanded with fewer than the target ahead of them,
are subscribed; every demanded stock is either subscribed or supplemented; added and removed are the
differences to the subscriptions before; and a stock that is removed though not wanted fell out of
the wanted ones at least a cooldown ago, or the hard limit is filled by wanted stocks and by stocks
with a better rank that were subscribed. -/
theorem run_admits (settings : SubscriptionSettings) (calls : List SubscriptionCall)
    (c : SubscriptionCall) :
    let r := run settings calls
    let demands := aggregateDemands c.demands
    let result := r.manager.reconcile c.demands c.now c.force
    ∃ plan, result.1 = .ok plan ∧ (plan.coalesced = false →
      (plan.subscriptions.length ≤ settings.hardLimit ∧ plan.subscriptions.Nodup ∧
        result.2.current = plan.subscriptions) ∧
      (∀ stockId, stockId ∈ r.wanted c ↔ (∃ d ∈ c.demands, d.stockId = stockId) ∧
        (demands.keys.filter fun other => rankOf (demands.get? other) other <
          rankOf (demands.get? stockId) stockId).length < settings.targetLimit) ∧
      (∀ stockId ∈ r.wanted c, stockId ∈ plan.subscriptions) ∧
      (∀ d ∈ c.demands,
        Xor (d.stockId ∈ plan.subscriptions) (d.stockId ∈ plan.snapshotSupplement)) ∧
      (∀ stockId,
        stockId ∈ plan.added ↔ stockId ∈ plan.subscriptions ∧ stockId ∉ r.manager.current) ∧
      (∀ stockId,
        stockId ∈ plan.removed ↔ stockId ∈ r.manager.current ∧ stockId ∉ plan.subscriptions) ∧
      ∀ stockId ∈ plan.removed, stockId ∉ r.wanted c →
        (∃ t, FellOut (r.passes ++ [(c.now, r.wanted c)]) stockId t ∧
            t.instant + settings.cooldown ≤ c.now.instant) ∨
          (plan.subscriptions.length = settings.hardLimit ∧
            ∀ other ∈ plan.subscriptions, other ∈ r.wanted c ∨ (other ∈ r.manager.current ∧
              (r.informed c).historicalRank other < (r.informed c).historicalRank stockId))) := by
  intro r demands result
  have hsound : Sound settings r := sound_run settings calls
  have hhard := congrArg SubscriptionSettings.hardLimit hsound.settings
  have htarget := congrArg SubscriptionSettings.targetLimit hsound.settings
  have hcooldown := congrArg SubscriptionSettings.cooldown hsound.settings
  rw [← hhard, ← htarget, ← hcooldown]
  by_cases hcoalesces : r.manager.Coalesces c.now c.force
  · obtain ⟨plan, hplan, hcoalesced⟩ :=
      coalescedPlan_ok (m := r.informed c) hsound.nodup hsound.bounded demands c.now
    have hresult : result = ((r.informed c).coalescedPlan demands c.now, r.informed c) :=
      if_pos hcoalesces
    rw [hresult]
    refine ⟨plan, hplan, fun hfalse => ?_⟩
    rw [hcoalesced] at hfalse
    cases hfalse
  have hresult : result = (r.informed c).apply demands c.now := if_neg hcoalesces
  obtain ⟨plan, hplan, -, hdecides⟩ := apply_admits (m := r.informed c) hsound.nodup demands c.now
  rw [hresult]
  refine
    ⟨plan, hplan, fun _ => ⟨⟨?_, ?_, hdecides.current⟩, r.manager.mem_desired_iff c.demands, ?_, ?_,
    hdecides.added, hdecides.removed, ?_⟩⟩
  · rw [hdecides.subscriptions]
    exact length_nextSubscriptions_le (m := r.informed c) hsound.nodup demands c.now
  · rw [hdecides.subscriptions]
    exact nodup_nextSubscriptions (m := r.informed c) hsound.nodup demands c.now
  · intro stockId hwanted
    rw [hdecides.subscriptions]
    exact mem_nextSubscriptions.mpr (.inl hwanted)
  · intro d hd
    have hkey : d.stockId ∈ demands.keys := ((aggregateDemands_spec c.demands).2 _).mpr ⟨d, hd, rfl⟩
    rw [hdecides.supplement]
    by_cases hsubscribed : d.stockId ∈ plan.subscriptions
    · exact .inl ⟨hsubscribed, fun h => h.2 hsubscribed⟩
    · exact .inr ⟨⟨hkey, hsubscribed⟩, hsubscribed⟩
  · intro stockId hremoved hout
    obtain ⟨hcurrent, hgone⟩ := (hdecides.removed stockId).mp hremoved
    rw [hdecides.subscriptions] at hgone ⊢
    exact hsound.given_up c hcurrent hgone

end SubscriptionRun

end Dayjaview.Kiwoom
