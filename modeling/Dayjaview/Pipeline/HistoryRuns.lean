import Dayjaview.Pipeline.History
import Dayjaview.Reference.Derivation

/-!
# What the intraday history gives back

Every written row is read back as it was, but for the day and the minute, which are those
of the file. A load gives back what the last calls have written exactly if none of its
files was cut off.
-/

namespace Dayjaview.Pipeline

open Dayjaview.Domain

theorem head?_bucketFile (bucket : TimeOfDay) : (bucketFile bucket).toList.head? = some 'b' := by
  rw [bucketFile, String.toList_append]
  rfl

theorem bucketPath_ne_membershipPath (d d' : Date) (bucket : TimeOfDay) :
    bucketPath d bucket ≠ membershipPath d' :=
  fun h => by
    have hhead := head?_bucketFile bucket
    rw [show bucketFile bucket = MEMBERSHIP_FILE from (Prod.ext_iff.mp h).2] at hhead
    exact absurd hhead (by decide)

theorem bucketPath_ne_attentionPath (d d' : Date) (bucket : TimeOfDay) :
    bucketPath d bucket ≠ attentionPath d' :=
  fun h => by
    have hhead := head?_bucketFile bucket
    rw [show bucketFile bucket = ATTENTION_FILE from (Prod.ext_iff.mp h).2] at hhead
    exact absurd hhead (by decide)

theorem membershipPath_ne_attentionPath (d d' : Date) : membershipPath d ≠ attentionPath d' :=
  fun h => absurd (show MEMBERSHIP_FILE = ATTENTION_FILE from (Prod.ext_iff.mp h).2) (by decide)

section Rows

variable [CharTable]

namespace Sorted

variable {fields : List (String × Json)} (hn : (fields.map Prod.fst).Nodup) {key : String}

include hn

theorem getItem (v : Json) (h : Json.field? fields key = some v) :
    (Json.obj fields).sortKeys.getItem key = .ok v.sortKeys := by
  rw [Json.sortKeys_obj]
  refine Json.getItem_obj ?_
  rw [Json.field?_sortedFields hn, h, Option.map_some]

theorem getText (text : String) (h : Json.field? fields key = some (.str text)) :
    (Json.obj fields).sortKeys.getText key = .ok text := by
  rw [Json.getText, getItem hn _ h]
  rfl

theorem getVia {α : Type} {read : String → Option α} {message : String → Error} {text : String}
    {a : α} (hread : read text = some a) (h : Json.field? fields key = some (.str text)) :
    Json.getVia read message (Json.obj fields).sortKeys key = .ok a := by
  rw [Json.getVia, getText hn _ h]
  simp only [bind, Except.bind, hread]
  rfl

theorem getTruth (b : Bool) (h : Json.field? fields key = some (.bool b)) :
    (Json.obj fields).sortKeys.getTruth key = .ok b := by
  rw [Json.getTruth, getItem hn _ h]
  rfl

theorem decimalItem (value : Option Decimal) (fieldName : String)
    (h : Json.field? fields key = some (decimalText value)) :
    Pipeline.decimalItem (Json.obj fields).sortKeys key fieldName = .ok value := by
  rw [Pipeline.decimalItem, getItem hn _ h]
  cases value with
  | none => rfl
  | some d =>
    show readDecimal fieldName (.str d.str) = _
    simp only [readDecimal, Json.text_str, Decimal.ofStr_str]

theorem truthItem (value : Option Bool) (h : Json.field? fields key = some (truthOrNull value)) :
    Pipeline.truthItem (Json.obj fields).sortKeys key = .ok value := by
  rw [Pipeline.truthItem, getItem hn _ h]
  cases value <;> rfl

theorem textItem (value : Option String) (h : Json.field? fields key = some (textOrNull value)) :
    Pipeline.textItem (Json.obj fields).sortKeys key = .ok value := by
  rw [Pipeline.textItem, getItem hn _ h]
  cases value <;> rfl

theorem countItem (value : Option Int) (h : Json.field? fields key = some (countOrNull value)) :
    Pipeline.countItem (Json.obj fields).sortKeys key = .ok value := by
  rw [Pipeline.countItem, getItem hn _ h]
  cases value <;> rfl

end Sorted

/-- An observation for the day and the minute of its file. -/
def movedTo (marketDate : Date) (timeBucket : TimeOfDay) (o : StockTradingValueObservation) :
    StockTradingValueObservation.Fields :=
  { o.toFields with marketDate, timeBucket }

section

omit [CharTable]

theorem turnoverFields_nodup (o : StockTradingValueObservation) :
    ((turnoverFields o).map Prod.fst).Nodup := by simp [turnoverFields]

theorem memberFields_nodup (m : ThemeMember) : ((memberFields m).map Prod.fst).Nodup := by
  simp [memberFields]

theorem membershipFields_nodup (s : ThemeMembershipSnapshot) :
    ((membershipFields s).map Prod.fst).Nodup := by simp [membershipFields]

theorem signalFields_nodup (s : AttentionDaySignal) : ((signalFields s).map Prod.fst).Nodup := by
  simp [signalFields]

end

theorem readTurnoverRow_turnoverRow (d : Date) (bucket : TimeOfDay)
    (o : StockTradingValueObservation) : readTurnoverRow d bucket (turnoverRow o).sortKeys =
      StockTradingValueObservation.make (movedTo d bucket o) := by
  have hn := turnoverFields_nodup o
  unfold readTurnoverRow turnoverRow Json.getDatetime
  rw [Sorted.getText hn o.stockId (by simp [turnoverFields]),
    Sorted.getVia hn (Datetime.fromisoformat_isoformat o.observedAt) (by simp [turnoverFields]),
    Sorted.decimalItem hn o.cumulativeTradingValue _ (by simp [turnoverFields]),
    Sorted.getTruth hn o.comparable (by simp [turnoverFields]),
    Sorted.getTruth hn o.fresh (by simp [turnoverFields]),
    Sorted.getTruth hn o.tradingHalted (by simp [turnoverFields]),
    Sorted.getTruth hn o.corporateActionUnresolved (by simp [turnoverFields])]
  rfl

theorem readMemberRow_memberRow (m : ThemeMember) :
    readMemberRow (memberRow m).sortKeys = .ok m := by
  have hn := memberFields_nodup m
  have hrole : readRole (roleValue m.role) = some m.role := by cases m.role <;> rfl
  unfold readMemberRow memberRow
  rw [Sorted.getText hn m.stockId (by simp [memberFields]),
    Sorted.getVia hn hrole (by simp [memberFields])]
  show (if h : m.stockId ≠ "" then Except.ok _ else _) = _
  rw [dif_pos m.valid]

theorem readMembershipRow_membershipRow (s : ThemeMembershipSnapshot) :
    readMembershipRow (membershipRow s).sortKeys = .ok s := by
  have hn := membershipFields_nodup s
  have hmembers : ((s.members.map memberRow).map Json.sortKeys).mapM readMemberRow =
      .ok s.members := by
    rw [List.map_map]
    exact mapM_map_eq_ok readMemberRow_memberRow _
  unfold readMembershipRow membershipRow Json.getDate Json.getDatetime
  rw [Sorted.getText hn s.themeId (by simp [membershipFields]),
    Sorted.getText hn s.version (by simp [membershipFields]),
    Sorted.getVia hn (Date.fromisoformat_isoformat s.effectiveFrom) (by simp [membershipFields]),
    Sorted.getVia hn (Datetime.fromisoformat_isoformat s.knownAt) (by simp [membershipFields]),
    Sorted.getItem hn (.arr (s.members.map memberRow)) (by simp [membershipFields])]
  show ((Json.sortItems (s.members.map memberRow)).mapM readMemberRow >>= _) = _
  rw [Json.sortItems_eq_map, hmembers]
  show checked ThemeMembershipSnapshot.Fields.postInit ThemeMembershipSnapshot.mk s.toFields = _
  exact checked_eq_ok.mpr ⟨s.valid, rfl⟩

omit [CharTable] in
theorem readReason_value (reason : UnavailableReason) : readReason reason.value = some reason := by
  cases reason <;> decide

theorem readReasonItem_textOrNull (reason : Option UnavailableReason) :
    readReasonItem (textOrNull (reason.map UnavailableReason.value)).sortKeys = .ok reason := by
  cases reason with
  | none => rfl
  | some reason =>
    show readReasonItem (.str reason.value) = _
    simp only [readReasonItem, Json.text_str, readReason_value]

theorem readSignalRow_signalRow (d : Date) (s : AttentionDaySignal) :
    readSignalRow d (signalRow s).sortKeys = .ok { s with marketDate := d } := by
  have hn := signalFields_nodup s
  unfold readSignalRow signalRow
  rw [Sorted.getItem hn (textOrNull (s.unavailableReason.map UnavailableReason.value))
      (by simp [signalFields]),
    Sorted.truthItem hn s.isAttention (by simp [signalFields]),
    Sorted.textItem hn s.membershipVersion (by simp [signalFields]),
    Sorted.getText hn s.calculationVersion (by simp [signalFields]),
    Sorted.getText hn s.baselineVersion (by simp [signalFields]),
    Sorted.getText hn s.attentionPolicyVersion (by simp [signalFields]),
    Sorted.decimalItem hn s.turnoverMultiple _ (by simp [signalFields]),
    Sorted.countItem hn s.highInterestCount (by simp [signalFields]),
    Sorted.countItem hn s.validCount (by simp [signalFields]),
    Sorted.decimalItem hn s.highInterestRatio _ (by simp [signalFields]),
    Sorted.decimalItem hn s.weightedReturn _ (by simp [signalFields])]
  show (readReasonItem (textOrNull (s.unavailableReason.map UnavailableReason.value)).sortKeys >>=
    _) = _
  rw [readReasonItem_textOrNull]
  rfl

end Rows

theorem plain_decimalText (value : Option Decimal) : (decimalText value).Plain := by
  cases value <;> trivial

theorem plain_textOrNull (value : Option String) : (textOrNull value).Plain := by
  cases value <;> trivial

theorem plain_countOrNull (value : Option Int) : (countOrNull value).Plain := by
  cases value <;> trivial

theorem plain_truthOrNull (value : Option Bool) : (truthOrNull value).Plain := by
  cases value <;> trivial

theorem depth_decimalText (value : Option Decimal) : (decimalText value).depth = 0 := by
  cases value <;> rfl

theorem depth_textOrNull (value : Option String) : (textOrNull value).depth = 0 := by
  cases value <;> rfl

theorem depth_countOrNull (value : Option Int) : (countOrNull value).depth = 0 := by
  cases value <;> rfl

theorem depth_truthOrNull (value : Option Bool) : (truthOrNull value).depth = 0 := by
  cases value <;> rfl

theorem plain_turnoverRow (o : StockTradingValueObservation) : (turnoverRow o).Plain := by
  refine ⟨turnoverFields_nodup o, ?_⟩
  simp [Json.plainFields_iff, turnoverFields, plain_decimalText, Json.Plain]

theorem plain_memberRow (m : ThemeMember) : (memberRow m).Plain := by
  refine ⟨memberFields_nodup m, ?_⟩
  simp [Json.plainFields_iff, memberFields, Json.Plain]

theorem plain_membershipRow (s : ThemeMembershipSnapshot) : (membershipRow s).Plain := by
  refine ⟨membershipFields_nodup s, ?_⟩
  have hmembers : Json.PlainItems (s.members.map memberRow) := by
    simp [Json.plainItems_iff, plain_memberRow]
  simp [Json.plainFields_iff, membershipFields, Json.Plain, hmembers]

theorem plain_signalRow (s : AttentionDaySignal) : (signalRow s).Plain := by
  refine ⟨signalFields_nodup s, ?_⟩
  simp [Json.plainFields_iff, signalFields, plain_decimalText, plain_textOrNull, plain_countOrNull,
    plain_truthOrNull, Json.Plain]

theorem depth_turnoverRow_le (o : StockTradingValueObservation) : (turnoverRow o).depth ≤ 1 := by
  refine Nat.succ_le_succ (Json.depthFields_le_iff.mpr ?_)
  simp [turnoverFields, depth_decimalText, Json.depth]

theorem depth_memberRow_le (m : ThemeMember) : (memberRow m).depth ≤ 1 := by
  refine Nat.succ_le_succ (Json.depthFields_le_iff.mpr ?_)
  simp [memberFields, Json.depth]

theorem depth_membershipRow_le (s : ThemeMembershipSnapshot) : (membershipRow s).depth ≤ 3 := by
  refine Nat.succ_le_succ (Json.depthFields_le_iff.mpr ?_)
  have hmembers : Json.depthItems (s.members.map memberRow) ≤ 1 :=
    Json.depthItems_le_iff.mpr (by simp [depth_memberRow_le])
  simp [membershipFields, Json.depth, hmembers]

theorem depth_signalRow_le (s : AttentionDaySignal) : (signalRow s).depth ≤ 1 := by
  refine Nat.succ_le_succ (Json.depthFields_le_iff.mpr ?_)
  simp [signalFields, depth_decimalText, depth_textOrNull, depth_countOrNull, depth_truthOrNull,
    Json.depth]

theorem plain_payload (c : HistoryCall) : c.payload.Plain := by
  cases c with
  | turnover d bucket observations =>
    exact Json.plainItems_iff.mpr (by simp [plain_turnoverRow])
  | membership d snapshots => exact Json.plainItems_iff.mpr (by simp [plain_membershipRow])
  | attention d signals =>
    refine ⟨?_, Json.plainFields_iff.mpr ?_⟩
    · rw [List.map_map]
      exact signals.keys_nodup
    · intro field hfield
      obtain ⟨e, -, rfl⟩ := List.mem_map.mp hfield
      exact plain_signalRow e.2

theorem depth_payload_le (c : HistoryCall) : c.payload.depth ≤ 4 := by
  cases c with
  | turnover d bucket observations =>
    refine Nat.succ_le_succ (Json.depthItems_le_iff.mpr ?_)
    simpa using fun o _ => (depth_turnoverRow_le o).trans (by decide)
  | membership d snapshots =>
    refine Nat.succ_le_succ (Json.depthItems_le_iff.mpr ?_)
    simpa using fun s _ => depth_membershipRow_le s
  | attention d signals =>
    refine Nat.succ_le_succ (Json.depthFields_le_iff.mpr fun field hfield => ?_)
    obtain ⟨e, -, rfl⟩ := List.mem_map.mp hfield
    exact (depth_signalRow_le e.2).trans (by decide)

theorem container_payload (c : HistoryCall) :
    (∃ items, c.payload = .arr items) ∨ ∃ fields, c.payload = .obj fields := by
  cases c with
  | turnover d bucket observations => exact .inl ⟨_, rfl⟩
  | membership d snapshots => exact .inl ⟨_, rfl⟩
  | attention d signals => exact .inr ⟨_, rfl⟩

inductive FileState where
  | missing
  | whole (c : HistoryCall)
  | cutOff

/-- What is in the file of a call after it. -/
def FileState.after (s : FileState) (c : HistoryCall) (e : CallEnd) : FileState :=
  match c.payload.dumpText with
  | .error _ => s
  | .ok text =>
    match e with
    | .completed => .whole c
    | .crashedBefore => s
    | .crashedAfter written => if text.toList.length ≤ written then .whole c else .cutOff

/-- What is in a file after some calls. -/
def fileState (calls : List (HistoryCall × CallEnd)) (path : HistoryPath) : FileState :=
  calls.foldl (fun s c => if c.1.path = path then s.after c.1 c.2 else s) .missing

/-- The text in a file is what should be there. -/
def FileState.Holds (files : HistoryFiles) (path : HistoryPath) : FileState → Prop
  | missing => files.get? path = none
  | whole c => c.path = path ∧ ∃ text, c.payload.dumpText = .ok text ∧ files.get? path = some text
  | cutOff => ∃ (c : HistoryCall) (text : String) (n : Nat), c.payload.dumpText = .ok text ∧
    n < text.toList.length ∧ files.get? path = some (String.ofList (text.toList.take n))

theorem FileState.Holds.record {files : HistoryFiles} {path : HistoryPath} {s : FileState}
    (h : s.Holds files path) (c : HistoryCall) (e : CallEnd) :
    (if c.path = path then s.after c e else s).Holds (files.record c e) path := by
  unfold HistoryFiles.record FileState.after
  cases htext : c.payload.dumpText with
  | error e =>
    simp only [ite_self]
    exact h
  | ok text =>
    by_cases hpath : c.path = path
    · rw [if_pos hpath]
      subst hpath
      cases e with
      | completed => exact ⟨rfl, text, htext, Dict.get?_set_self ..⟩
      | crashedBefore => exact h
      | crashedAfter written =>
        simp only
        split
        · rename_i hall
          refine ⟨rfl, text, htext, ?_⟩
          rw [List.take_of_length_le hall, String.ofList_toList]
          exact Dict.get?_set_self ..
        · rename_i hpart
          exact ⟨c, text, written, htext, Nat.not_le.mp hpart, Dict.get?_set_self ..⟩
    · rw [if_neg hpath]
      have hother : ∀ text, (files.set c.path text).get? path = files.get? path :=
        fun text => Dict.get?_set_of_ne _ _ (Ne.symm hpath)
      cases e with
      | crashedBefore => exact h
      | completed | crashedAfter written =>
        cases s with
        | missing => exact (hother _).trans h
        | whole c' =>
          obtain ⟨hc', text', htext', hget⟩ := h
          exact ⟨hc', text', htext', (hother _).trans hget⟩
        | cutOff =>
          obtain ⟨c', text', n, htext', hn, hget⟩ := h
          exact ⟨c', text', n, htext', hn, (hother _).trans hget⟩

theorem holds_recordAll (calls : List (HistoryCall × CallEnd)) (path : HistoryPath) :
    (fileState calls path).Holds (HistoryFiles.recordAll .empty calls) path := by
  have hrun : ∀ (calls : List (HistoryCall × CallEnd)) (files : HistoryFiles) (s : FileState),
      s.Holds files path →
      (calls.foldl (fun s c => if c.1.path = path then s.after c.1 c.2 else s) s).Holds
        (HistoryFiles.recordAll files calls) path := by
    intro calls
    induction calls with
    | nil => exact fun files s h => h
    | cons c calls ih => exact fun files s h => ih _ _ (h.record c.1 c.2)
  exact hrun calls .empty .missing rfl

section Reading

variable [JsonRuntime] {files : HistoryFiles} {path : HistoryPath}

theorem readFile_of_holds (hlimit : 4 ≤ JsonRuntime.recursionLimit) {s : FileState}
    (h : s.Holds files path) :
    match s with
    | .missing => readFile files path = .ok none
    | .whole c => readFile files path = .ok (some c.payload.sortKeys)
    | .cutOff => ∃ e, readFile files path = .error e := by
  have hreadable : ∀ (c : HistoryCall) (text : String), c.payload.dumpText = .ok text →
      c.payload.Readable ∧ text = c.payload.dumps := by
    intro c text htext
    unfold Json.dumpText at htext
    split at htext
    · rename_i hfit
      exact ⟨Json.readable_of_plain _ (plain_payload c) hfit, (Except.ok.inj htext).symm⟩
    · cases htext
  cases s with
  | missing =>
    have hnone : files.get? path = none := h
    simp only [readFile, hnone]
  | whole c =>
    obtain ⟨-, text, htext, hget⟩ := h
    obtain ⟨hread, rfl⟩ := hreadable c text htext
    simp only [readFile, hget, loads_dumps hread ((depth_payload_le c).trans hlimit)]
    rfl
  | cutOff =>
    obtain ⟨c, text, n, htext, hn, hget⟩ := h
    obtain ⟨hread, rfl⟩ := hreadable c text htext
    obtain ⟨e, he⟩ := loads_take_dumps hread ((depth_payload_le c).trans hlimit)
      (container_payload c) hn
    refine ⟨e, ?_⟩
    simp only [readFile, hget, he]
    rfl

end Reading

/-- The observations in a file. -/
def FileState.observations : FileState → List StockTradingValueObservation
  | whole (.turnover _ _ observations) => observations
  | _ => []

def FileState.memberships : FileState → List ThemeMembershipSnapshot
  | whole (.membership _ snapshots) => snapshots
  | _ => []

/-- The signals in a file by theme. -/
def FileState.signals : FileState → List (String × AttentionDaySignal)
  | whole (.attention _ signals) => signals.sortedEntries
  | _ => []

inductive HistoryLoad where
  | turnover (timeBucket : TimeOfDay) (tradingDays : List Date)
  | membership (tradingDays : List Date)
  | attention (tradingDays : List Date)

/-- An observation for a minute. -/
def atMinute (bucket : TimeOfDay) (o : StockTradingValueObservation) :
    StockTradingValueObservation.Fields := { o.toFields with timeBucket := bucket }

def onDay (d : Date) (e : String × AttentionDaySignal) : String × AttentionDaySignal :=
  (e.1, { e.2 with marketDate := d })

/-- The signals of every theme. -/
def byTheme (signals : List (String × AttentionDaySignal)) :
    Dict String (List AttentionDaySignal) :=
  (grouped Prod.fst signals).mapValues fun signals => signals.map Prod.snd

/-- The files of a load are whole, and what is in them is for its days and for a minute. -/
def HistoryLoad.Intact (state : HistoryPath → FileState) : HistoryLoad → Prop
  | turnover bucket days => ∀ d ∈ days, state (bucketPath d bucket) ≠ .cutOff ∧
    ∀ o ∈ (state (bucketPath d bucket)).observations,
      o.marketDate = d ∧ bucket.second = 0 ∧ bucket.microsecond = 0
  | membership days => ∀ d ∈ days, state (membershipPath d) ≠ .cutOff
  | attention days => ∀ d ∈ days, state (attentionPath d) ≠ .cutOff ∧
    ∀ e ∈ (state (attentionPath d)).signals, e.2.marketDate = d

section Loads

variable [CharTable] [JsonRuntime] {files : HistoryFiles} {s : FileState}

/-- A load returns what was recorded, up to the minute; a file that was cut off adds nothing. -/
def HistoryLoad.Served (files : HistoryFiles) (state : HistoryPath → FileState) : HistoryLoad → Prop
  | turnover bucket days => ∃ loaded, loadTurnover files bucket days = .ok loaded ∧
    loaded.map StockTradingValueObservation.toFields =
      (days.flatMap fun d => (state (bucketPath d bucket)).observations).map (atMinute bucket)
  | membership days => loadMembership files days =
    .ok (days.flatMap fun d => (state (membershipPath d)).memberships)
  | attention days => ∃ loaded, loadAttention files days = .ok loaded ∧
    loaded.Same (byTheme (days.flatMap fun d => (state (attentionPath d)).signals))

omit [CharTable] [JsonRuntime] in
theorem postInit_movedTo (d : Date) (bucket : TimeOfDay) (o : StockTradingValueObservation) :
    (movedTo d bucket o).postInit = .ok () ↔ bucket.second = 0 ∧ bucket.microsecond = 0 := by
  have hvalid := o.valid
  simp only [StockTradingValueObservation.Fields.postInit, movedTo, check_bind_eq_ok] at hvalid ⊢
  exact ⟨fun h => ensure_eq_ok.mp h.2.1, fun h => ⟨hvalid.1, ensure_eq_ok.mpr h, hvalid.2.2⟩⟩

omit [JsonRuntime] in
theorem mapM_readTurnoverRow (d : Date) (bucket : TimeOfDay)
    (observations : List StockTradingValueObservation) :
    (Json.sortItems (observations.map turnoverRow)).mapM (readTurnoverRow d bucket) =
      observations.mapM fun o => StockTradingValueObservation.make (movedTo d bucket o) := by
  rw [Json.sortItems_eq_map, List.map_map, List.mapM_map]
  exact mapM_congr fun o _ => readTurnoverRow_turnoverRow d bucket o

variable {d : Date}

theorem loadTurnoverDay_eq (hlimit : 4 ≤ JsonRuntime.recursionLimit) {bucket : TimeOfDay}
    (h : s.Holds files (bucketPath d bucket)) :
    (s = .cutOff → ∃ e, loadTurnoverDay files bucket d = .error e) ∧
    (s ≠ .cutOff → loadTurnoverDay files bucket d =
      s.observations.mapM fun o => StockTradingValueObservation.make (movedTo d bucket o)) := by
  have hread := readFile_of_holds hlimit h
  unfold loadTurnoverDay
  cases s with
  | missing =>
    rw [hread]
    exact ⟨nofun, fun _ => rfl⟩
  | whole c =>
    rw [hread]
    refine ⟨nofun, fun _ => ?_⟩
    cases c with
    | turnover d' bucket' observations => exact mapM_readTurnoverRow d bucket observations
    | membership d' snapshots => exact absurd h.1.symm (bucketPath_ne_membershipPath _ _ _)
    | attention d' signals => exact absurd h.1.symm (bucketPath_ne_attentionPath _ _ _)
  | cutOff =>
    obtain ⟨e, he⟩ := hread
    rw [he]
    exact ⟨fun _ => ⟨e, rfl⟩, fun hne => absurd rfl hne⟩

theorem loadMembershipDay_eq (hlimit : 4 ≤ JsonRuntime.recursionLimit)
    (h : s.Holds files (membershipPath d)) :
    (s = .cutOff → ∃ e, loadMembershipDay files d = .error e) ∧
    (s ≠ .cutOff → loadMembershipDay files d = .ok s.memberships) := by
  have hread := readFile_of_holds hlimit h
  unfold loadMembershipDay
  cases s with
  | missing =>
    rw [hread]
    exact ⟨nofun, fun _ => rfl⟩
  | whole c =>
    rw [hread]
    refine ⟨nofun, fun _ => ?_⟩
    cases c with
    | turnover d' bucket' observations => exact absurd h.1 (bucketPath_ne_membershipPath _ _ _)
    | membership d' snapshots =>
      show (Json.sortItems (snapshots.map membershipRow)).mapM readMembershipRow = _
      rw [Json.sortItems_eq_map, List.map_map]
      exact mapM_map_eq_ok readMembershipRow_membershipRow _
    | attention d' signals => exact absurd h.1.symm (membershipPath_ne_attentionPath _ _)
  | cutOff =>
    obtain ⟨e, he⟩ := hread
    rw [he]
    exact ⟨fun _ => ⟨e, rfl⟩, fun hne => absurd rfl hne⟩

omit [CharTable] [JsonRuntime] in
theorem sortedFields_signals (signals : Dict String AttentionDaySignal) :
    Json.sortedFields (signals.entries.map fun e => (e.1, signalRow e.2)) =
      signals.sortedEntries.map fun e => (e.1, (signalRow e.2).sortKeys) := by
  have hfields : Json.sortFields (signals.entries.map fun e => (e.1, signalRow e.2)) =
      signals.entries.map fun e => (e.1, (signalRow e.2).sortKeys) := by
    generalize signals.entries = entries
    induction entries with
    | nil => rfl
    | cons e entries ih => rw [List.map_cons, Json.sortFields, ih, List.map_cons]
  rw [Json.sortedFields, hfields, Dict.sortedEntries]
  exact (List.map_insertionSort (r := fun a b : String × AttentionDaySignal => a.1 ≤ b.1)
    (s := fun a b : String × Json => a.1 ≤ b.1) (fun e => (e.1, (signalRow e.2).sortKeys)) _
    fun _ _ _ _ => Iff.rfl).symm

theorem loadAttentionDay_eq (hlimit : 4 ≤ JsonRuntime.recursionLimit)
    (h : s.Holds files (attentionPath d)) :
    (s = .cutOff → ∃ e, loadAttentionDay files d = .error e) ∧
    (s ≠ .cutOff → loadAttentionDay files d = .ok (s.signals.map (onDay d))) := by
  have hread := readFile_of_holds hlimit h
  unfold loadAttentionDay
  cases s with
  | missing =>
    rw [hread]
    exact ⟨nofun, fun _ => rfl⟩
  | whole c =>
    rw [hread]
    refine ⟨nofun, fun _ => ?_⟩
    cases c with
    | turnover d' bucket' observations => exact absurd h.1 (bucketPath_ne_attentionPath _ _ _)
    | membership d' snapshots => exact absurd h.1 (membershipPath_ne_attentionPath _ _)
    | attention d' signals =>
      have hpayload : (HistoryCall.attention d' signals).payload.sortKeys =
          .obj (signals.sortedEntries.map fun e => (e.1, (signalRow e.2).sortKeys)) := by
        rw [HistoryCall.payload, Json.sortKeys_obj, sortedFields_signals]
      rw [hpayload]
      show ((signals.sortedEntries.map fun e => (e.1, (signalRow e.2).sortKeys)).mapM fun e => do
        let signal ← readSignalRow d e.2
        return (e.1, signal)) = _
      rw [List.mapM_map]
      refine mapM_eq_ok_map fun e _ => ?_
      show (do
        let signal ← readSignalRow d (signalRow e.2).sortKeys
        return (e.1, signal)) = _
      rw [readSignalRow_signalRow]
      rfl
  | cutOff =>
    obtain ⟨e, he⟩ := hread
    rw [he]
    exact ⟨fun _ => ⟨e, rfl⟩, fun hne => absurd rfl hne⟩

section

omit [CharTable] [JsonRuntime]

theorem mapM_make_eq_ok {fields : List StockTradingValueObservation.Fields}
    {observations : List StockTradingValueObservation} :
    fields.mapM StockTradingValueObservation.make = .ok observations ↔
      observations.map StockTradingValueObservation.toFields = fields := by
  constructor
  · intro h
    induction fields generalizing observations with
    | nil => rw [← Except.ok.inj h]; rfl
    | cons f fields ih =>
      rw [List.mapM_cons] at h
      obtain ⟨o, ho, h⟩ := bind_eq_ok.mp h
      obtain ⟨os, hos, h⟩ := bind_eq_ok.mp h
      obtain ⟨hvalid, rfl⟩ := checked_eq_ok.mp ho
      rw [← Except.ok.inj h, List.map_cons, ih hos]
  · rintro rfl
    exact mapM_map_eq_ok (fun o => checked_of_ok o.valid) observations

theorem mapM_flatten_eq_ok {α β : Type} {f : α → Except Error (List β)} {as : List α}
    {all : List β} :
    (do
      let parts ← as.mapM f
      return parts.flatten : Except Error (List β)) = .ok all ↔
      ∃ g : α → List β, (∀ a ∈ as, f a = .ok (g a)) ∧ all = as.flatMap g := by
  constructor
  · intro h
    obtain ⟨parts, hparts, hall⟩ := bind_eq_ok.mp h
    have hdays : ∀ a ∈ as, ∃ part, f a = .ok part := fun a ha => by
      obtain ⟨part, -, hpart⟩ := (mem_of_mapM_eq_ok hparts).2 a ha
      exact ⟨part, hpart⟩
    choose! g hg using hdays
    refine ⟨g, hg, ?_⟩
    rw [mapM_eq_ok_map hg] at hparts
    rw [← Except.ok.inj hall, ← Except.ok.inj hparts, List.flatMap_def]
  · rintro ⟨g, hg, rfl⟩
    rw [mapM_eq_ok_map hg, List.flatMap_def]
    rfl

end

variable {state : HistoryPath → FileState} (hstate : ∀ path, (state path).Holds files path)
  (hlimit : 4 ≤ JsonRuntime.recursionLimit)

include hstate hlimit

/-- A day of observations is served exactly if its file is whole and all of them can be
moved to the minute. -/
theorem loadTurnoverDay_eq_ok {bucket : TimeOfDay} {part : List StockTradingValueObservation} :
    loadTurnoverDay files bucket d = .ok part ↔ state (bucketPath d bucket) ≠ .cutOff ∧
      part.map StockTradingValueObservation.toFields =
        (state (bucketPath d bucket)).observations.map (movedTo d bucket) := by
  obtain ⟨hcut, hwhole⟩ := loadTurnoverDay_eq hlimit (hstate (bucketPath d bucket))
  by_cases hs : state (bucketPath d bucket) = .cutOff
  · obtain ⟨e, he⟩ := hcut hs
    simp [he, hs]
  · rw [hwhole hs, ← mapM_make_eq_ok, List.mapM_map]
    exact ⟨fun h => ⟨hs, h⟩, fun h => h.2⟩

theorem turnover_served_iff (bucket : TimeOfDay) (days : List Date) :
    (HistoryLoad.turnover bucket days).Served files state ↔
      (HistoryLoad.turnover bucket days).Intact state := by
  constructor
  · rintro ⟨loaded, hload, hloaded⟩
    obtain ⟨g, hg, rfl⟩ := mapM_flatten_eq_ok.mp hload
    have hday := fun d hd => (loadTurnoverDay_eq_ok hstate hlimit).mp (hg d hd)
    rw [List.map_flatMap, List.map_flatMap] at hloaded
    have hsame := eq_of_flatMap_eq (fun d hd => by
      rw [(hday d hd).2, List.length_map, List.length_map]) hloaded
    intro d hd
    refine ⟨(hday d hd).1, fun o ho => ?_⟩
    have hmoved : movedTo d bucket o = atMinute bucket o := by
      have hall := (hday d hd).2.symm.trans (hsame d hd)
      exact List.map_inj_left.mp hall o ho
    have hbucket : (movedTo d bucket o).postInit = .ok () := by
      obtain ⟨loaded, -, hfields⟩ := List.mem_map.mp
        ((hday d hd).2.symm ▸ List.mem_map_of_mem (f := movedTo d bucket) ho)
      exact hfields ▸ loaded.valid
    exact ⟨(congrArg StockTradingValueObservation.Fields.marketDate hmoved).symm,
      (postInit_movedTo d bucket o).mp hbucket⟩
  · intro h
    have hparts : ∀ d ∈ days, ∃ part : List StockTradingValueObservation,
        part.map StockTradingValueObservation.toFields =
          (state (bucketPath d bucket)).observations.map (movedTo d bucket) := by
      intro d hd
      refine ⟨(state (bucketPath d bucket)).observations.attach.map fun o =>
        ⟨movedTo d bucket o.1, (postInit_movedTo d bucket o.1).mpr ((h d hd).2 o.1 o.2).2⟩, ?_⟩
      rw [List.map_map]
      exact List.attach_map_val (f := movedTo d bucket)
    choose! g hg using hparts
    refine ⟨days.flatMap g, mapM_flatten_eq_ok.mpr ⟨g, fun d hd => ?_, rfl⟩, ?_⟩
    · exact (loadTurnoverDay_eq_ok hstate hlimit).mpr ⟨(h d hd).1, hg d hd⟩
    · rw [List.map_flatMap, List.map_flatMap]
      refine List.flatMap_congr fun d hd => ?_
      rw [hg d hd]
      refine List.map_congr_left fun o ho => ?_
      rw [movedTo, atMinute, ← ((h d hd).2 o ho).1]

theorem membership_served_iff (days : List Date) :
    (HistoryLoad.membership days).Served files state ↔
      (HistoryLoad.membership days).Intact state := by
  constructor
  · intro h d hd hcut
    obtain ⟨g, hg, -⟩ := mapM_flatten_eq_ok.mp h
    obtain ⟨e, he⟩ := (loadMembershipDay_eq hlimit (hstate (membershipPath d))).1 hcut
    rw [hg d hd] at he
    cases he
  · intro h
    refine mapM_flatten_eq_ok.mpr ⟨_, fun d hd => ?_, rfl⟩
    exact (loadMembershipDay_eq hlimit (hstate (membershipPath d))).2 (h d hd)

section

omit [CharTable] [JsonRuntime] hstate hlimit

theorem get?_byTheme (signals : List (String × AttentionDaySignal)) (themeId : String) :
    (byTheme signals).get? themeId = if themeId ∈ signals.map Prod.fst
      then some ((signals.filter fun e => e.1 = themeId).map Prod.snd) else none := by
  rw [byTheme, Dict.get?_mapValues, get?_grouped]
  split <;> rfl

theorem eq_of_same_byTheme {α : Type} {f g : α → String × AttentionDaySignal} {as : List α}
    (htheme : ∀ a, (f a).1 = (g a).1) (h : (byTheme (as.map f)).Same (byTheme (as.map g))) :
    ∀ a ∈ as, f a = g a := by
  intro a ha
  have hfilter : ((as.map f).filter fun e => e.1 = (g a).1) =
      (as.filter fun b => (g b).1 = (g a).1).map f := by
    simp [List.filter_map, Function.comp_def, htheme]
  have hmem : (g a).1 ∈ (as.map f).map Prod.fst :=
    List.mem_map.mpr ⟨f a, List.mem_map_of_mem ha, htheme a⟩
  have hmem' : (g a).1 ∈ (as.map g).map Prod.fst :=
    List.mem_map_of_mem (List.mem_map_of_mem ha)
  have hsame := h (g a).1
  rw [get?_byTheme, get?_byTheme, if_pos hmem, if_pos hmem', hfilter, List.filter_map,
    List.map_map, List.map_map] at hsame
  have hsnd := List.map_inj_left.mp (Option.some.inj hsame) a
    (List.mem_filter.mpr ⟨ha, decide_eq_true rfl⟩)
  exact Prod.ext (htheme a) hsnd

end

theorem attention_served_iff (days : List Date) :
    (HistoryLoad.attention days).Served files state ↔
      (HistoryLoad.attention days).Intact state := by
  have hday := fun d => loadAttentionDay_eq hlimit (hstate (attentionPath d))
  have hload : (∀ d ∈ days, state (attentionPath d) ≠ .cutOff) →
      loadAttention files days = .ok (byTheme (days.flatMap fun d =>
        (state (attentionPath d)).signals.map (onDay d))) := fun h => by
    have hparts := mapM_eq_ok_map fun d (hd : d ∈ days) => (hday d).2 (h d hd)
    rw [loadAttention, hparts, List.flatMap_def]
    rfl
  have hwhole : ∀ {loaded}, loadAttention files days = .ok loaded →
      ∀ d ∈ days, state (attentionPath d) ≠ .cutOff := fun {loaded} h d hd hcut => by
    obtain ⟨parts, hparts, -⟩ := bind_eq_ok.mp h
    obtain ⟨part, -, hpart⟩ := (mem_of_mapM_eq_ok hparts).2 d hd
    obtain ⟨e, he⟩ := (hday d).1 hcut
    rw [hpart] at he
    cases he
  -- every recorded signal beside the day it is loaded for
  let dated := days.flatMap fun d => (state (attentionPath d)).signals.map fun e => (d, e)
  have hloaded : (days.flatMap fun d => (state (attentionPath d)).signals.map (onDay d)) =
      dated.map fun p => onDay p.1 p.2 := by
    simp [dated, List.map_flatMap, Function.comp_def]
  have hrecorded : (days.flatMap fun d => (state (attentionPath d)).signals) =
      dated.map Prod.snd := by
    simp [dated, List.map_flatMap, Function.comp_def]
  constructor
  · rintro ⟨loaded, hok, hsame⟩
    have hall := hwhole hok
    obtain rfl := Except.ok.inj ((hload hall).symm.trans hok)
    rw [hloaded, hrecorded] at hsame
    have heq := eq_of_same_byTheme (f := fun p : Date × String × AttentionDaySignal =>
      onDay p.1 p.2) (g := Prod.snd) (fun _ => rfl) hsame
    intro d hd
    refine ⟨hall d hd, fun e he => ?_⟩
    have hmoved := heq (d, e)
      (List.mem_flatMap.mpr ⟨d, hd, List.mem_map_of_mem he⟩)
    exact (congrArg (fun e => e.2.marketDate) hmoved).symm
  · intro h
    refine ⟨_, hload fun d hd => (h d hd).1, ?_⟩
    have heq : (dated.map fun p => onDay p.1 p.2) = dated.map Prod.snd := by
      refine List.map_congr_left fun p hp => ?_
      obtain ⟨d, hd, hp⟩ := List.mem_flatMap.mp hp
      obtain ⟨e, he, rfl⟩ := List.mem_map.mp hp
      show (e.1, { e.2 with marketDate := d }) = e
      rw [← (h d hd).2 e he]
    rw [hloaded, hrecorded, heq]
    exact Dict.Same.refl _

/-- A load returns what the last calls recorded exactly if none of its files was cut off,
and what was recorded is for its days and a minute. -/
theorem served_iff (load : HistoryLoad) : load.Served files state ↔ load.Intact state := by
  cases load with
  | turnover bucket days => exact turnover_served_iff hstate hlimit bucket days
  | membership days => exact membership_served_iff hstate hlimit days
  | attention days => exact attention_served_iff hstate hlimit days

omit hstate in
/-- After every sequence of calls, each of which may be cut off, a load returns what the last
calls have recorded exactly if none of the files it reads was left cut off, and what is in
them was recorded for their days and a minute. -/
theorem served_iff_intact (calls : List (HistoryCall × CallEnd)) (load : HistoryLoad) :
    load.Served (HistoryFiles.recordAll .empty calls) (fileState calls) ↔
      load.Intact (fileState calls) :=
  served_iff (holds_recordAll calls) hlimit load

end Loads

/-- The fourth of August 2026. -/
def augustFourth : Date := .august 4

theorem chips_member : "005930" ≠ "" := by decide

/-- The fields of a theme with one member. -/
def chipsFields : ThemeMembershipSnapshot.Fields where
  themeId := "chips"
  version := "v1"
  effectiveFrom := augustFourth
  knownAt := Reference.evening 4 0
  members := [⟨"005930", .core, chips_member⟩]

theorem chips_valid : chipsFields.postInit = .ok () := by decide

def chips : ThemeMembershipSnapshot := ⟨chipsFields, chips_valid⟩

/-- The load of a day whose memberships are recorded in full. -/
theorem served_iff_intact_chips :
    letI : CharTable := ⟨fun _ => true⟩
    letI : JsonRuntime := Reference.plainRuntime
    (HistoryLoad.membership [augustFourth]).Served
        (HistoryFiles.recordAll .empty [(.membership augustFourth [chips], .completed)])
        (fileState [(.membership augustFourth [chips], .completed)]) ↔
      (HistoryLoad.membership [augustFourth]).Intact
        (fileState [(.membership augustFourth [chips], .completed)]) :=
  let _ : CharTable := ⟨fun _ => true⟩
  let _ : JsonRuntime := Reference.plainRuntime
  served_iff_intact (by decide) _ _

theorem fileState_cut :
    fileState [(.membership augustFourth [chips], .crashedAfter 1)] (membershipPath augustFourth) =
      .cutOff := by
  have hlong : 1 < (HistoryCall.membership augustFourth [chips]).payload.dumps.toList.length := by
    simp [HistoryCall.payload, Json.dumps, Json.sortKeys, Json.sortItems, Json.spacedChars,
      Json.spacedItems]
  have htext : (HistoryCall.membership augustFourth [chips]).payload.dumpText =
      .ok (HistoryCall.membership augustFourth [chips]).payload.dumps := if_pos (by decide)
  simp only [fileState, List.foldl, HistoryCall.path, if_true, FileState.after, htext,
    if_neg (Nat.not_le.mpr hlong)]

/-- A load of a file that was cut off does not return. -/
theorem not_served_cut :
    letI : CharTable := ⟨fun _ => true⟩
    letI : JsonRuntime := Reference.plainRuntime
    ¬ ∀ (calls : List (HistoryCall × CallEnd)) (load : HistoryLoad),
      load.Served (HistoryFiles.recordAll .empty calls) (fileState calls) := by
  let _ : CharTable := ⟨fun _ => true⟩
  let _ : JsonRuntime := Reference.plainRuntime
  intro h
  have hserved := h [(.membership augustFourth [chips], .crashedAfter 1)]
    (.membership [augustFourth])
  have hintact := (served_iff (holds_recordAll _) (by decide) _).mp hserved
  exact hintact augustFourth (List.mem_singleton.mpr rfl) fileState_cut

end Dayjaview.Pipeline
