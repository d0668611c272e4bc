import Dayjaview.Pipeline.Market

/-!
# What the evaluation of the themes leaves alone

Evaluating and closing themes writes events, states and counters. The hot states,
the references, the marked themes and the calculations stay, and so does the
latest time, which only the evaluated calculations move.
-/

namespace Dayjaview.Pipeline

open Dayjaview.Domain Dayjaview.Events Dayjaview.Calculations Dayjaview.Realtime

/-- Two states of the pipeline with the same data. -/
structure SameData (s s' : MarketDataPipeline) : Prop where
  settings : s'.toPipelineSettings = s.toPipelineSettings
  hot : s'.hot = s.hot
  references : s'.references = s.references
  basePriceFilled : s'.basePriceFilled = s.basePriceFilled
  aggregator : s'.aggregator = s.aggregator
  latestMetrics : s'.latestMetrics = s.latestMetrics
  lastAsOf : s'.lastAsOf = s.lastAsOf
  marketClosed : s'.marketClosed = s.marketClosed

namespace SameData

theorem refl (s : MarketDataPipeline) : SameData s s := ⟨rfl, rfl, rfl, rfl, rfl, rfl, rfl, rfl⟩

theorem trans {s t u : MarketDataPipeline} (h : SameData s t) (h' : SameData t u) :
    SameData s u where
  settings := h'.settings.trans h.settings
  hot := h'.hot.trans h.hot
  references := h'.references.trans h.references
  basePriceFilled := h'.basePriceFilled.trans h.basePriceFilled
  aggregator := h'.aggregator.trans h.aggregator
  latestMetrics := h'.latestMetrics.trans h.latestMetrics
  lastAsOf := h'.lastAsOf.trans h.lastAsOf
  marketClosed := h'.marketClosed.trans h.marketClosed

end SameData

namespace MarketDataPipeline

theorem sameData_commandMetadata (s : MarketDataPipeline) (update : ThemeMetricUpdate)
    (now : Datetime) : SameData s (s.commandMetadata update now).2 :=
  ⟨rfl, rfl, rfl, rfl, rfl, rfl, rfl, rfl⟩

theorem sameData_noteActivation (s : MarketDataPipeline) (themeId : String)
    (transition : HysteresisTransition) (now : Datetime) :
    SameData s (s.noteActivation themeId transition now) := by
  unfold noteActivation
  split
  · exact ⟨rfl, rfl, rfl, rfl, rfl, rfl, rfl, rfl⟩
  · exact .refl s

variable [Sha256]

theorem sameData_write (s : MarketDataPipeline) (command : EventCommand) (commitFails : Bool) :
    SameData s (s.write command commitFails).2 :=
  ⟨rfl, rfl, rfl, rfl, rfl, rfl, rfl, rfl⟩

theorem sameData_createEvent (s : MarketDataPipeline) (around : Surroundings)
    (update : ThemeMetricUpdate) (now : Datetime) :
    SameData s (s.createEvent around update now).2 := by
  unfold createEvent
  split
  · exact .refl s
  · have hmetadata := s.sameData_commandMetadata update now
    dsimp only
    split
    · exact hmetadata
    · exact hmetadata.trans (sameData_write ..)

theorem sameData_transitionEvent (s : MarketDataPipeline) (around : Surroundings) (eventId : String)
    (transition : HysteresisTransition) (update : ThemeMetricUpdate) (now : Datetime) :
    SameData s (s.transitionEvent around eventId transition update now).2 := by
  unfold transitionEvent
  split
  · exact .refl s
  · have hmetadata := s.sameData_commandMetadata update now
    dsimp only
    split
    · exact hmetadata
    · exact hmetadata.trans (sameData_write ..)

theorem sameData_ensureEvent (s : MarketDataPipeline) (around : Surroundings)
    (update : ThemeMetricUpdate) (now : Datetime) :
    SameData s (s.ensureEvent around update now).2 := by
  have hcreate := s.sameData_createEvent around update now
  unfold ensureEvent
  split
  · exact .refl s
  · split
    · next heq =>
      rw [heq] at hcreate
      exact hcreate
    · next heq =>
      rw [heq] at hcreate
      exact hcreate.trans ⟨rfl, rfl, rfl, rfl, rfl, rfl, rfl, rfl⟩

theorem sameData_reduce (s : MarketDataPipeline) (themeId : String) (state : HysteresisState)
    (input : ActivationEvaluation.Fields) : SameData s (s.reduce themeId state input).2 := by
  unfold reduce
  dsimp only
  split
  · exact ⟨rfl, rfl, rfl, rfl, rfl, rfl, rfl, rfl⟩
  · split
    · exact ⟨rfl, rfl, rfl, rfl, rfl, rfl, rfl, rfl⟩
    · exact ⟨rfl, rfl, rfl, rfl, rfl, rfl, rfl, rfl⟩

theorem sameData_evaluateTheme (s : MarketDataPipeline) (around : Surroundings)
    (update : ThemeMetricUpdate) (now : Datetime) :
    SameData (s.noteAsOf update.asOf) (s.evaluateTheme around update now).2 := by
  have hensure := (s.noteAsOf update.asOf).sameData_ensureEvent around update now
  unfold evaluateTheme
  split
  · next heq =>
    rw [heq] at hensure
    exact hensure
  · next eventId ensured heq =>
    rw [heq] at hensure
    split
    · exact hensure
    · next state _ =>
      have hreduce := ensured.sameData_reduce update.themeId state (ensured.openInput update now)
      split
      · next hreduced =>
        rw [hreduced] at hreduce
        exact hensure.trans hreduce
      · next hreduced =>
        rw [hreduced] at hreduce
        exact hensure.trans hreduce
      · next transition reduced hreduced =>
        rw [hreduced] at hreduce
        have hnote := reduced.sameData_noteActivation update.themeId transition now
        exact hensure.trans (hreduce.trans (hnote.trans (sameData_transitionEvent ..)))

theorem sameData_closeTheme (s : MarketDataPipeline) (around : Surroundings)
    (update : ThemeMetricUpdate) (now : Datetime) :
    SameData s (s.closeTheme around update now).2 := by
  unfold closeTheme
  split
  · exact .refl s
  · next state _ =>
    split
    · exact .refl s
    · have hreduce := s.sameData_reduce update.themeId state (s.closingInput update now)
      split
      · next hreduced =>
        rw [hreduced] at hreduce
        exact hreduce
      · next hreduced =>
        rw [hreduced] at hreduce
        exact hreduce
      · next transition reduced hreduced =>
        rw [hreduced] at hreduce
        split
        · exact hreduce
        · exact hreduce.trans (sameData_transitionEvent ..)

section

omit [Sha256]

/-- Notice the times of some calculations. -/
def noteAll (s : MarketDataPipeline) (updates : List ThemeMetricUpdate) : MarketDataPipeline :=
  updates.foldl (fun s update => s.noteAsOf update.asOf) s

theorem sameData_noteAsOf {s s' : MarketDataPipeline} (h : SameData s s') (asOf : Datetime) :
    SameData (s.noteAsOf asOf) (s'.noteAsOf asOf) := by
  unfold MarketDataPipeline.noteAsOf
  rw [h.lastAsOf]
  split
  · exact ⟨h.settings, h.hot, h.references, h.basePriceFilled, h.aggregator, h.latestMetrics, rfl,
      h.marketClosed⟩
  · exact h

theorem sameData_noteAll {s s' : MarketDataPipeline} (h : SameData s s')
    (updates : List ThemeMetricUpdate) : SameData (s.noteAll updates) (s'.noteAll updates) := by
  induction updates generalizing s s' with
  | nil => exact h
  | cons update updates ih => exact ih (sameData_noteAsOf h update.asOf)

theorem noteAll_eq (s : MarketDataPipeline) (updates : List ThemeMetricUpdate) :
    ∃ last, s.noteAll updates = { s with lastAsOf := last } := by
  induction updates generalizing s with
  | nil => exact ⟨s.lastAsOf, rfl⟩
  | cons update updates ih =>
    obtain ⟨last, hlast⟩ := ih (s.noteAsOf update.asOf)
    refine ⟨last, hlast.trans ?_⟩
    unfold noteAsOf
    split <;> rfl

end

theorem sameData_evaluateThemes (s : MarketDataPipeline) (around : Surroundings) (now : Datetime)
    (updates : List ThemeMetricUpdate) :
    let result := forUpdates (fun s update => s.evaluateTheme around update now) updates s
    ∃ treated, treated <+: updates ∧ SameData (s.noteAll treated) result.2 ∧
      (result.1 = .ok () → treated = updates) := by
  induction updates generalizing s with
  | nil => exact ⟨[], List.prefix_rfl, .refl s, fun _ => rfl⟩
  | cons update updates ih =>
    have hfirst := s.sameData_evaluateTheme around update now
    dsimp only
    unfold forUpdates
    split
    · next heq =>
      rw [heq] at hfirst
      refine ⟨[update], ⟨updates, rfl⟩, hfirst, fun h => ?_⟩
      cases h
    · next next heq =>
      rw [heq] at hfirst
      obtain ⟨treated, hbegins, hsame, hall⟩ := ih next
      refine ⟨update :: treated, List.cons_prefix_cons.mpr ⟨rfl, hbegins⟩, ?_, fun h => ?_⟩
      · exact (sameData_noteAll hfirst treated).trans hsame
      · rw [hall h]

theorem sameData_closeThemes (s : MarketDataPipeline) (around : Surroundings) (now : Datetime)
    (updates : List ThemeMetricUpdate) :
    SameData s (forUpdates (fun s update => s.closeTheme around update now) updates s).2 := by
  induction updates generalizing s with
  | nil => exact .refl s
  | cons update updates ih =>
    have hfirst := s.sameData_closeTheme around update now
    unfold forUpdates
    split
    · next heq =>
      rw [heq] at hfirst
      exact hfirst
    · next heq =>
      rw [heq] at hfirst
      exact hfirst.trans (ih _)

/-- What a publication leaves of the data: that of the drain, with the latest time moved by the
calculations that were evaluated. -/
theorem publish_data (s : MarketDataPipeline) (around : Surroundings) (now : Datetime) :
    ∃ treated, SameData (s.recalculate.2.noteAll treated) (s.publish around now).2 ∧
      (∀ u ∈ treated, u ∈ s.recalculate.2.orderedMetrics) ∧
      ((s.publish around now).1 = .ok () → s.recalculate.1 = .ok () ∧
        treated = if s.marketClosed then [] else s.recalculate.2.orderedMetrics) := by
  have hclosed : s.recalculate.2.marketClosed = s.marketClosed := by
    unfold recalculate
    dsimp only
    split <;> rfl
  unfold publish
  cases hdrained : s.recalculate with
  | mk result drained =>
    rw [hdrained] at hclosed
    dsimp only at hclosed ⊢
    cases result with
    | error e => exact ⟨[], .refl drained, by simp, fun h => by cases h⟩
    | ok =>
      dsimp only
      rw [← hclosed]
      split
      · exact ⟨[], .refl drained, by simp, fun _ => ⟨rfl, rfl⟩⟩
      · obtain ⟨treated, hbegins, hsame, hall⟩ :=
          drained.sameData_evaluateThemes around now drained.orderedMetrics
        refine ⟨treated, ?_, fun u hu => hbegins.subset hu, fun h => ⟨rfl, ?_⟩⟩
        · split
          · next heq =>
            rw [heq] at hsame
            exact hsame
          · next heq =>
            rw [heq] at hsame
            exact hsame
        · split at h
          · cases h
          · next heq => exact hall (by rw [heq])

theorem closeMarket_data (s : MarketDataPipeline) (around : Surroundings) (now : Datetime) :
    SameData { s with marketClosed := true } (s.closeMarket around now).2 := by
  have hclose := sameData_closeThemes { s with marketClosed := true } around now s.orderedMetrics
  unfold closeMarket
  dsimp only
  split
  · next heq =>
    have hstate := congrArg Prod.snd heq
    exact hstate ▸ hclose
  · next heq =>
    have hstate := congrArg Prod.snd heq
    exact hstate ▸ hclose

end MarketDataPipeline

end Dayjaview.Pipeline
