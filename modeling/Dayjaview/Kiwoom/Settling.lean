import Dayjaview.Kiwoom.SubscriptionRuns

/-!
# Where the subscriptions settle

When the best demands stay the same for a cooldown, the next applied plan
subscribes to exactly these. A flush makes up for a call that came too early.
-/

namespace Dayjaview.Kiwoom

namespace SubscriptionManager

/-- Every deadline is over at some instant, and what has none is wanted. -/
structure Steady (wanted : List String) (expiry : Int) (m : SubscriptionManager) : Prop where
  deadlines : ∀ stockId deadline, m.retainedUntil.get? stockId = some deadline → deadline ≤ expiry
  current : ∀ stockId ∈ m.current, m.retainedUntil.get? stockId = none → stockId ∈ wanted

variable {demands : Dict String SubscriptionDemand} {m : SubscriptionManager} {now : Datetime}

/-- An applied plan keeps a deadline or gives one to a stock that just fell out. -/
theorem deadline_apply (hnodup : m.current.Nodup) {stockId : String} {deadline : Int}
    (h : (m.apply demands now).2.retainedUntil.get? stockId = some deadline) :
    stockId ∉ m.desired demands ∧ (m.retainedUntil.get? stockId = some deadline ∨
      (m.retainedUntil.get? stockId = none ∧ stockId ∈ m.current ∧
        deadline = now.instant + m.cooldown)) := by
  obtain ⟨plan, -, -, hdecides⟩ := apply_admits hnodup demands now
  rw [hdecides.deadlines] at h
  split at h
  · cases h
  have hnext := m.nextDeadline (m.desired demands) now stockId
  rw [h] at hnext
  cases hnext with
  | running hout _ hretained _ => exact ⟨hout, .inl hretained⟩
  | fellOut hout hnone hcurrent => exact ⟨hout, .inr ⟨hnone, hcurrent, rfl⟩⟩

/-- A subscribed stock without a deadline is desired. -/
theorem desired_of_apply (hnodup : m.current.Nodup) {stockId : String}
    (hcurrent : stockId ∈ (m.apply demands now).2.current)
    (hnone : (m.apply demands now).2.retainedUntil.get? stockId = none) :
    stockId ∈ m.desired demands := by
  obtain ⟨plan, -, -, hdecides⟩ := apply_admits hnodup demands now
  rw [hdecides.current] at hcurrent
  rw [hdecides.deadlines, if_neg fun hgone => hgone.2 hcurrent] at hnone
  rw [hdecides.subscriptions, mem_nextSubscriptions] at hcurrent
  rcases hcurrent with hdesired | hcooling
  · exact hdesired
  · have hlate := (mem_cooling_current hcooling).2.2
    rw [hnone, Option.getD_none] at hlate
    exact absurd hlate (lt_irrefl _)

theorem Steady.apply (hnodup : m.current.Nodup) {wanted : List String} {expiry : Int}
    (hdeadlines : ∀ stockId deadline, m.retainedUntil.get? stockId = some deadline →
      deadline ≤ expiry) (hnew : now.instant + m.cooldown ≤ expiry ∨
      ∀ stockId ∈ m.current, m.retainedUntil.get? stockId = none → stockId ∈ wanted)
    (hsame : ∀ stockId, stockId ∈ m.desired demands ↔ stockId ∈ wanted) :
    Steady wanted expiry (m.apply demands now).2 := by
  refine ⟨fun stockId deadline h => ?_, fun stockId hcurrent hnone => ?_⟩
  · obtain ⟨hout, hold | ⟨hnone, hcurrent, rfl⟩⟩ := deadline_apply hnodup h
    · exact hdeadlines stockId deadline hold
    · rcases hnew with hlater | hall
      · exact hlater
      · exact absurd ((hsame stockId).mpr (hall stockId hcurrent hnone)) hout
  · exact (hsame stockId).mp (desired_of_apply hnodup hcurrent hnone)

/-- When the deadlines are over, nothing is kept that is not desired. -/
theorem Steady.cooling_eq_nil {wanted : List String} {expiry : Int} (h : Steady wanted expiry m)
    {desired : List String} (hsame : ∀ stockId, stockId ∈ desired ↔ stockId ∈ wanted)
    (hover : expiry ≤ now.instant) : m.cooling desired now = [] := by
  refine List.eq_nil_iff_forall_not_mem.mpr fun stockId hcooling => ?_
  obtain ⟨hcurrent, hout, hlate⟩ := mem_cooling_current hcooling
  have hnext := m.nextDeadline desired now stockId
  revert hlate
  generalize (m.nextDeadlines desired now).get? stockId = next at hnext
  cases hnext with
  | desired hin => exact absurd hin hout
  | expired _ _ _ _ => exact lt_irrefl _
  | absent _ _ _ => exact lt_irrefl _
  | running _ deadline hretained hrunning =>
    have hle := h.deadlines stockId deadline hretained
    omega
  | fellOut _ hnone _ => exact absurd ((hsame stockId).mpr (h.current stockId hcurrent hnone)) hout

/-- Take the demands that are pending. -/
def flush (m : SubscriptionManager) (now : Datetime) (force : Bool) :
    Except Error SubscriptionPlan × SubscriptionManager :=
  m.reconcile m.pendingDemands.values now force

/-- Demands that were put together stay as they are. -/
theorem aggregateDemands_values (h : Keyed demands) :
    aggregateDemands demands.values = demands := by
  have hfold :
      ∀ (entries : List (String × SubscriptionDemand)) (d : Dict String SubscriptionDemand),
      (entries.map Prod.fst).Nodup → (∀ e ∈ entries, e.2.stockId = e.1 ∧ d.get? e.1 = none) →
        (entries.map Prod.snd).foldl addDemand d = entries.foldl (fun d e => d.set e.1 e.2) d := by
    intro entries
    induction entries with
    | nil => exact fun _ _ _ => rfl
    | cons e entries ih =>
      intro d hnodup hentries
      obtain ⟨hstock, hnone⟩ := hentries e (List.mem_cons_self ..)
      obtain ⟨hfresh, hnodup⟩ := List.nodup_cons.mp hnodup
      have hadd : addDemand d e.2 = d.set e.1 e.2 := by
        rw [addDemand, hstock, hnone]
      rw [List.map_cons, List.foldl_cons, List.foldl_cons, hadd]
      refine ih _ hnodup fun e' he' => ?_
      obtain ⟨hstock', hnone'⟩ := hentries e' (List.mem_cons_of_mem _ he')
      have hne : e'.1 ≠ e.1 := fun hsame => hfresh (hsame ▸ List.mem_map_of_mem he')
      exact ⟨hstock', by rw [Dict.get?_set_of_ne _ _ hne, hnone']⟩
  have hentries : ∀ e ∈ demands.entries,
      e.2.stockId = e.1 ∧ (Dict.empty : Dict String SubscriptionDemand).get? e.1 = none :=
    fun e he => ⟨h e.1 e.2 (demands.mem_entries_iff.mp he), rfl⟩
  have hlist : aggregateDemands demands.values = Dict.ofList demands.entries :=
    hfold demands.entries .empty demands.nodup hentries
  have hback := Dict.entries_ofList demands.nodup
  rw [hlist]
  cases hof : Dict.ofList demands.entries with
  | mk entries nodup =>
    rw [hof] at hback
    cases demands
    subst hback
    rfl

end SubscriptionManager

def pastNine (minute : Nat) : Datetime := (Date.august 14).seoul 9 minute

/-- The demand for the leader of a theme. -/
def leaderFields (stockId : String) : SubscriptionDemand.Fields :=
  { stockId, priority := .activeLeader, observedAt := pastNine 0 }

theorem valid_firstLeader : (leaderFields "KRX:005930").postInit = .ok () := by decide +kernel

theorem valid_secondLeader : (leaderFields "KRX:000660").postInit = .ok () := by decide +kernel

/-- The first leader is demanded. -/
def firstLeader : SubscriptionDemand := ⟨leaderFields "KRX:005930", valid_firstLeader⟩

/-- The second leader is demanded. -/
def secondLeader : SubscriptionDemand := ⟨leaderFields "KRX:000660", valid_secondLeader⟩

theorem valid_standard : 1 ≤ 180 ∧ 180 ≤ 200 ∧ (0 : Int) ≤ 60000000 ∧ (0 : Int) ≤ 1000000 :=
  by decide

/-- The limits and times of the service. -/
def standardSettings : SubscriptionSettings := ⟨180, 200, 60000000, 1000000, valid_standard⟩

namespace SubscriptionRun

open SubscriptionManager

/-- After a call that came too early, a flush gives the plan and leaves the manager that the call
would give and leave at the time of the flush. -/
theorem flush_after_coalesced (settings : SubscriptionSettings) (calls : List SubscriptionCall)
    (c : SubscriptionCall) (hearly : (run settings calls).manager.Coalesces c.now c.force)
    (now : Datetime) (force : Bool) :
    (run settings (calls ++ [c])).manager.flush now force =
      (run settings calls).manager.reconcile c.demands now force := by
  have hrun : run settings (calls ++ [c]) = (run settings calls).step c := List.foldl_concat ..
  generalize run settings calls = r at *
  have hmanager : (run settings (calls ++ [c])).manager = r.informed c := by
    rw [hrun, SubscriptionRun.step, r.reconcile_eq, if_pos hearly]
  rw [hmanager, flush, reconcile, reconcile]
  have hvalues : aggregateDemands (r.informed c).pendingDemands.values =
      aggregateDemands c.demands :=
    aggregateDemands_values (aggregateDemands_spec c.demands).1
  rw [hvalues]
  rfl

/-- The second leader is demanded too early and flushed a minute later. -/
theorem flush_after_coalesced_leader :
    (run standardSettings
      [⟨[firstLeader], pastNine 0, false⟩, ⟨[secondLeader], pastNine 0, false⟩]).manager.flush
        (pastNine 1) false =
      (run standardSettings [⟨[firstLeader], pastNine 0, false⟩]).manager.reconcile [secondLeader]
        (pastNine 1) false :=
  flush_after_coalesced standardSettings [⟨[firstLeader], pastNine 0, false⟩]
    ⟨[secondLeader], pastNine 0, false⟩ (by decide +kernel) (pastNine 1) false

/-- The best of some demands. -/
def bestOf (settings : SubscriptionSettings) (demands : List SubscriptionDemand) : List String :=
  (SubscriptionManager.new settings).desired (aggregateDemands demands)

variable {r : SubscriptionRun} {settings : SubscriptionSettings}

theorem Sound.wanted_eq (h : Sound settings r) (c : SubscriptionCall) :
    r.wanted c = bestOf settings c.demands := by
  have htarget : r.manager.targetLimit = settings.targetLimit :=
    congrArg SubscriptionSettings.targetLimit h.settings
  unfold SubscriptionRun.wanted bestOf desired
  rw [htarget]
  rfl

/-- A call comes too early and leaves the subscriptions, or applies its demands. -/
theorem step_cases (r : SubscriptionRun) (c : SubscriptionCall) :
    (r.manager.Coalesces c.now c.force ∧ (r.step c).manager = r.informed c) ∨
      (¬ r.manager.Coalesces c.now c.force ∧
        (r.step c).manager = ((r.informed c).apply (aggregateDemands c.demands) c.now).2) := by
  rw [SubscriptionRun.step, r.reconcile_eq]
  by_cases hearly : r.manager.Coalesces c.now c.force
  · exact .inl ⟨hearly, by rw [if_pos hearly]⟩
  · exact .inr ⟨hearly, by rw [if_neg hearly]⟩

/-- No deadline is later than a cooldown after the calls. -/
theorem deadline_le_of_run (settings : SubscriptionSettings) (calls : List SubscriptionCall)
    {now : Datetime} (hcalls : ∀ c ∈ calls, c.now ≤ now) (stockId : String) (deadline : Int)
    (h : (run settings calls).manager.retainedUntil.get? stockId = some deadline) :
    deadline ≤ now.instant + settings.cooldown := by
  induction calls using List.reverseRecOn generalizing deadline with
  | nil => cases h
  | append_singleton calls c ih =>
    have hrun : run settings (calls ++ [c]) = (run settings calls).step c := List.foldl_concat ..
    have hsound := sound_run settings calls
    have hbefore := ih fun c hc => hcalls c (List.mem_append_left _ hc)
    rw [hrun] at h
    obtain ⟨-, heq⟩ | ⟨-, heq⟩ := step_cases (run settings calls) c
    · rw [heq] at h
      exact hbefore deadline h
    · rw [heq] at h
      obtain ⟨-, hold | ⟨-, -, rfl⟩⟩ := deadline_apply (m := (run settings calls).informed c)
        hsound.nodup h
      · exact hbefore deadline hold
      · have hnow : c.now.instant ≤ now.instant :=
          hcalls c (List.mem_append_right _ (List.mem_singleton.mpr rfl))
        have hcooldown : ((run settings calls).informed c).cooldown = settings.cooldown :=
          congrArg SubscriptionSettings.cooldown hsound.settings
        omega

/-- An applied plan for the wanted stocks starts a steady time or goes on with it. -/
theorem Sound.steady_step (h : Sound settings r) {wanted : List String} {expiry : Int}
    {c : SubscriptionCall}
    (hsteady : ∀ stockId, stockId ∈ bestOf settings c.demands ↔ stockId ∈ wanted)
    (happlied : ¬ r.manager.Coalesces c.now c.force)
    (hdeadlines : ∀ stockId deadline, r.manager.retainedUntil.get? stockId = some deadline →
      deadline ≤ expiry) (hnew : c.now.instant + settings.cooldown ≤ expiry ∨
      ∀ stockId ∈ r.manager.current, r.manager.retainedUntil.get? stockId = none →
      stockId ∈ wanted) :
    Steady wanted expiry (r.step c).manager := by
  obtain ⟨hearly, -⟩ | ⟨-, heq⟩ := step_cases r c
  · exact absurd hearly happlied
  have hcooldown : r.manager.cooldown = settings.cooldown :=
    congrArg SubscriptionSettings.cooldown h.settings
  rw [← hcooldown] at hnew
  rw [← h.wanted_eq] at hsteady
  rw [heq]
  exact Steady.apply (m := r.informed c) h.nodup hdeadlines hnew hsteady

theorem Sound.steady_steps (h : Sound settings r) {wanted : List String} {expiry : Int}
    (hstart : Steady wanted expiry r.manager) (calls : List SubscriptionCall)
    (hsteady : ∀ c ∈ calls, ∀ stockId, stockId ∈ bestOf settings c.demands ↔ stockId ∈ wanted) :
    Steady wanted expiry (calls.foldl SubscriptionRun.step r).manager := by
  induction calls generalizing r with
  | nil => exact hstart
  | cons c calls ih =>
    refine ih (h.step c) ?_ fun c hc => hsteady c (List.mem_cons_of_mem _ hc)
    by_cases hearly : r.manager.Coalesces c.now c.force
    · obtain ⟨-, heq⟩ | ⟨happlied, -⟩ := step_cases r c
      · rw [heq]
        exact ⟨hstart.deadlines, hstart.current⟩
      · exact absurd hearly happlied
    · exact h.steady_step (hsteady c (List.mem_cons_self ..)) hearly hstart.deadlines
        (.inr hstart.current)

/-- When the best demands of all calls since an applied plan are the same stocks, each applied plan
that is made a cooldown later subscribes to these stocks and no others, whatever was subscribed
before. -/
theorem run_settles (settings : SubscriptionSettings) (earlier between : List SubscriptionCall)
    (first last : SubscriptionCall) (wanted : List String)
    (hbefore : ∀ c ∈ earlier, c.now ≤ first.now)
    (hfirst : ¬ (run settings earlier).manager.Coalesces first.now first.force)
    (hlast : ¬ (run settings (earlier ++ first :: between)).manager.Coalesces last.now last.force)
    (hcooled : first.now.instant + settings.cooldown ≤ last.now.instant)
    (hsteady : ∀ c ∈ first :: (between ++ [last]), ∀ stockId,
      stockId ∈ bestOf settings c.demands ↔ stockId ∈ wanted) :
    ∃ plan, ((run settings (earlier ++ first :: between)).manager.reconcile last.demands last.now
        last.force).1 = .ok plan ∧ plan.subscriptions.Perm (bestOf settings last.demands) := by
  have hrun : run settings (earlier ++ first :: between) =
      between.foldl SubscriptionRun.step ((run settings earlier).step first) := by
    rw [run, List.foldl_append, List.foldl_cons]
    rfl
  have hsound : Sound settings (run settings (earlier ++ first :: between)) := sound_run settings _
  have hearlier : Sound settings (run settings earlier) := sound_run settings earlier
  have hstart : Steady wanted (first.now.instant + settings.cooldown)
      ((run settings earlier).step first).manager :=
    hearlier.steady_step (hsteady first (List.mem_cons_self ..)) hfirst
      (deadline_le_of_run settings earlier hbefore) (.inl (le_refl _))
  have hkept : Steady wanted (first.now.instant + settings.cooldown)
      (run settings (earlier ++ first :: between)).manager := by
    rw [hrun]
    refine (hearlier.step first).steady_steps hstart between fun c hc => ?_
    exact hsteady c (List.mem_cons_of_mem _ (List.mem_append_left _ hc))
  clear hrun hstart
  generalize run settings (earlier ++ first :: between) = r at hsound hkept hlast ⊢
  have hsame : ∀ stockId, stockId ∈ r.wanted last ↔ stockId ∈ wanted := by
    rw [hsound.wanted_eq]
    exact hsteady last
      (List.mem_cons_of_mem _ (List.mem_append_right _ (List.mem_singleton.mpr rfl)))
  have hinformed : Steady wanted (first.now.instant + settings.cooldown) (r.informed last) :=
    ⟨hkept.deadlines, hkept.current⟩
  have hnone := hinformed.cooling_eq_nil hsame hcooled
  obtain ⟨plan, hplan, -, hdecides⟩ := apply_admits (m := r.informed last) hsound.nodup
    (aggregateDemands last.demands) last.now
  refine ⟨plan, ?_, ?_⟩
  · rw [r.reconcile_eq, if_neg hlast]
    exact hplan
  · rw [hdecides.subscriptions, ← hsound.wanted_eq]
    have hsettled : ∀ stockId, stockId ∈ (r.informed last).nextSubscriptions
        (aggregateDemands last.demands) last.now ↔ stockId ∈ r.wanted last := by
      intro stockId
      refine mem_nextSubscriptions.trans (or_iff_left fun hcooling => ?_)
      rw [show (r.informed last).cooling ((r.informed last).desired (aggregateDemands last.demands))
        last.now = [] from hnone] at hcooling
      cases hcooling
    exact
      (List.perm_ext_iff_of_nodup (nodup_nextSubscriptions (m := r.informed last) hsound.nodup _ _)
      (nodup_desired _ _)).mpr hsettled

/-- The first leader is kept for a minute after the second one took its place. -/
theorem run_settles_leader :
    ∃ plan, ((run standardSettings [⟨[firstLeader], pastNine 0, false⟩,
        ⟨[secondLeader], pastNine 1, false⟩]).manager.reconcile [secondLeader]
        (pastNine 2) false).1 =
          .ok plan ∧ plan.subscriptions.Perm (bestOf standardSettings [secondLeader]) := by
  refine run_settles standardSettings [⟨[firstLeader], pastNine 0, false⟩] []
    ⟨[secondLeader], pastNine 1, false⟩ ⟨[secondLeader], pastNine 2, false⟩
    (bestOf standardSettings [secondLeader]) (by decide +kernel) (by decide +kernel)
    (by decide +kernel) (by decide +kernel) fun c hc stockId => ?_
  rcases List.mem_cons.mp hc with rfl | hc
  · exact Iff.rfl
  · rw [List.mem_singleton.mp hc]

end SubscriptionRun

end Dayjaview.Kiwoom
