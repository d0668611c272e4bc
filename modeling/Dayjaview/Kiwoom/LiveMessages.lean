import Dayjaview.Core.Clocks
import Dayjaview.Kiwoom.ConditionRetries
import Dayjaview.Kiwoom.Gateway
import Dayjaview.Kiwoom.RowFailures
import Mathlib.Data.List.TakeWhile

/-!
# What the gateway makes of live messages

The adapter keeps only rows with a code of six digits. The gateway takes an envelope in, or refuses
it with a normalization error, unless the first row that gives no event has a number that is too
large, a code with digits outside ASCII, or no digest: these errors escape.
-/

namespace Dayjaview.Kiwoom

theorem field?_withField_self (fields : JsonValue.Fields) (key : String) (value : JsonValue) :
    JsonValue.field? (withField fields key value) key = some value := by
  have hmap : codePoints key ∈ fields.map Prod.fst → JsonValue.field?
      (fields.map fun field => if field.1 = codePoints key then (field.1, value) else field) key =
        some value := by
    induction fields with
    | nil => nofun
    | cons field fields ih =>
      obtain ⟨name, old⟩ := field
      intro hmem
      rw [List.map_cons]
      by_cases hname : name = codePoints key
      · rw [if_pos hname, hname]
        exact JsonValue.field?_cons_self _ _ _
      · rw [if_neg hname, JsonValue.field?_cons_of_ne _ _ hname]
        exact ih ((List.mem_cons.mp hmem).resolve_left fun h => hname h.symm)
  have happend : codePoints key ∉ fields.map Prod.fst →
      JsonValue.field? (fields ++ [(codePoints key, value)]) key = some value := by
    clear hmap
    induction fields with
    | nil => exact fun _ => JsonValue.field?_cons_self _ _ _
    | cons field fields ih =>
      obtain ⟨name, old⟩ := field
      intro hmem
      obtain ⟨hname, hmem⟩ := not_or.mp (mt List.mem_cons.mpr hmem)
      rw [List.cons_append, JsonValue.field?_cons_of_ne _ _ fun h => hname h.symm]
      exact ih hmem
  unfold withField
  split
  · next h => exact hmap h
  · next h => exact happend h

theorem field?_withField_of_ne (fields : JsonValue.Fields) {key key' : String} (value : JsonValue)
    (hne : key ≠ key') :
    JsonValue.field? (withField fields key value) key' = JsonValue.field? fields key' := by
  have hpoints : codePoints key ≠ codePoints key' := codePoints_injective.ne hne
  have hcons : ∀ (field : List CodePoint × JsonValue) (rest rest' : JsonValue.Fields),
      JsonValue.field? rest key' = JsonValue.field? rest' key' →
        JsonValue.field? (field :: rest) key' = JsonValue.field? (field :: rest') key' := by
    rintro ⟨name, old⟩ rest rest' hrest
    by_cases hname : name = codePoints key'
    · rw [hname, JsonValue.field?_cons_self, JsonValue.field?_cons_self]
    · rw [JsonValue.field?_cons_of_ne _ _ hname, JsonValue.field?_cons_of_ne _ _ hname, hrest]
  have hmap : JsonValue.field?
      (fields.map fun field => if field.1 = codePoints key then (field.1, value) else field) key' =
        JsonValue.field? fields key' := by
    induction fields with
    | nil => rfl
    | cons field fields ih =>
      obtain ⟨name, old⟩ := field
      rw [List.map_cons]
      by_cases hname : name = codePoints key
      · rw [if_pos hname, hname, JsonValue.field?_cons_of_ne _ _ hpoints, ih,
          JsonValue.field?_cons_of_ne _ _ hpoints]
      · rw [if_neg hname]
        exact hcons _ _ _ ih
  have happend : JsonValue.field? (fields ++ [(codePoints key, value)]) key' =
      JsonValue.field? fields key' := by
    clear hmap
    induction fields with
    | nil => exact JsonValue.field?_cons_of_ne _ _ hpoints
    | cons field fields ih => exact hcons _ _ _ ih
  unfold withField
  split
  · exact hmap
  · exact happend

/-- A replaced field has its new value. -/
theorem getOr_withField_self (fields : JsonValue.Fields) (key : String) (value : JsonValue) :
    (JsonValue.obj (withField fields key value)).getOr key = value := by
  unfold JsonValue.getOr
  dsimp only
  rw [field?_withField_self]
  rfl

/-- The other fields keep their values. -/
theorem getOr_withField_of_ne (fields : JsonValue.Fields) {key key' : String} (value : JsonValue)
    (hne : key ≠ key') :
    (JsonValue.obj (withField fields key value)).getOr key' =
      (JsonValue.obj fields).getOr key' := by
  unfold JsonValue.getOr
  dsimp only
  rw [field?_withField_of_ne fields value hne]

/-- The code that was written into a row. -/
theorem getOr_withCode_self (fields : JsonValue.Fields) (key code : String) :
    (withCode fields key code).getOr key = .str (codePoints code) :=
  getOr_withField_self fields key _

/-- Writing a code into a row keeps the other fields. -/
theorem getOr_withCode_of_ne (fields : JsonValue.Fields) {key key' : String} (code : String)
    (hne : key ≠ key') :
    (withCode fields key code).getOr key' = (JsonValue.obj fields).getOr key' :=
  getOr_withField_of_ne fields _ hne

/-- What is left after stripping is no whitespace. -/
theorem stripPoints_stripPoints_ne {cs : List CodePoint} (h : stripPoints cs ≠ []) :
    stripPoints (stripPoints cs) ≠ [] := by
  rw [ne_eq, stripPoints_eq_nil_iff] at h ⊢
  intro hblank
  refine h fun c hc => ?_
  by_contra hspace
  have hsolid : c.isSpace = false := Bool.eq_false_of_not_eq_true hspace
  rw [hblank c ((mem_stripPoints hsolid).mpr hc)] at hsolid
  cases hsolid

/-- What the Unicode tables say about digits and about ASCII. -/
structure LawfulTable [UnicodeTable] : Prop where
  upper : ∀ c, UnicodeTable.isdigit c = true → UnicodeTable.upper c = [c]
  blank : ∀ c, UnicodeTable.isdigit c = true → isSpace c = false
  ascii : ∀ c : Char, c.toNat < 128 → UnicodeTable.isdigit c = c.isDigit
  asciiUpper : ∀ c : Char, c.toNat < 128 → UnicodeTable.upper c = [c.toUpper]

def SixDigits [UnicodeTable] (code : String) : Prop :=
  code.toList.length = 6 ∧ isDigitText code = true

variable [JsonValue.Printer] [UnicodeTable]

variable {code : String}

theorem sixDigits_of_normalize {value : JsonValue} (h : normalizeLiveStockCode value = some code) :
    SixDigits code := by
  unfold normalizeLiveStockCode at h
  dsimp only at h
  split at h
  · next hsix =>
    obtain ⟨text, htext⟩ := eq_codePoints_of_isDigitPoints hsix.2
    rw [htext] at h hsix
    rw [charsOf_codePoints, String.ofList_toList] at h
    cases h
    rw [isDigitPoints_codePoints] at hsix
    exact ⟨(List.length_map _).symm.trans hsix.1, hsix.2⟩
  · cases h

section

omit [JsonValue.Printer]

theorem SixDigits.digit (h : SixDigits code) :
    ∀ c ∈ code.toList, UnicodeTable.isdigit c = true := by
  have hdigits := h.2
  unfold isDigitText at hdigits
  exact List.all_eq_true.mp (Bool.and_eq_true_iff.mp hdigits).2

theorem upperText_eq_self {text : String} (h : ∀ c ∈ text.toList, UnicodeTable.upper c = [c]) :
    upperText text = text := by
  have hflat : ∀ cs : List Char, (∀ c ∈ cs, UnicodeTable.upper c = [c]) →
      cs.flatMap UnicodeTable.upper = cs := by
    intro cs hcs
    induction cs with
    | nil => rfl
    | cons c cs ih =>
      rw [List.flatMap_cons, hcs c List.mem_cons_self,
        ih fun d hd => hcs d (List.mem_cons_of_mem _ hd)]
      rfl
  rw [upperText, hflat text.toList h, String.ofList_toList]

end

omit [UnicodeTable] in
theorem textOrEmpty_str (text : List CodePoint) : textOrEmpty (.str text) = text := by
  cases text <;> rfl

/-- The code that the adapter writes into a row is the one that the normalizer reads. -/
theorem stockCode_kept (hlaw : LawfulTable) (h : SixDigits code) (others : List JsonValue)
    (hothers : others ≠ []) :
    stockCode (firstTrue (.str (codePoints code) :: others)) = .ok code := by
  have hne : codePoints code ≠ [] := by
    intro hnil
    have hlength := congrArg List.length hnil
    rw [codePoints, List.length_map, h.1] at hlength
    cases hlength
  have hfirst : firstTrue (.str (codePoints code) :: others) = .str (codePoints code) := by
    obtain ⟨other, others, rfl⟩ := List.exists_cons_of_ne_nil hothers
    unfold firstTrue
    rw [if_pos (by simpa [JsonValue.truth] using hne)]
  have hstrip : strip code = code := by
    unfold strip
    rw [stripChars_eq_self fun c hc => hlaw.blank c (h.digit c hc), String.ofList_toList]
  have hletter : withoutMarketLetter (codePoints code) = codePoints code := by
    unfold withoutMarketLetter
    split
    · next cs hcs =>
      have hmem : CodePoint.char 'A' ∈ codePoints code := by
        rw [hcs]
        exact List.mem_cons_self
      obtain ⟨c, hc, hA⟩ := List.mem_map.mp hmem
      cases hA
      have hdigit := h.digit 'A' hc
      rw [hlaw.ascii 'A' (by decide)] at hdigit
      exact absurd hdigit (by decide)
    · rfl
  unfold stockCode
  rw [hfirst, textOrEmpty_str, stripPoints_codePoints, hstrip, upperPoints_codePoints,
    upperText_eq_self fun c hc => hlaw.upper c (h.digit c hc), hletter]
  dsimp only
  rw [charsOf_codePoints, String.ofList_toList, isDigitPoints_codePoints, if_neg]
  rintro (hlength | hdigits)
  · exact hlength ((List.length_map _).trans h.1)
  · rw [h.2] at hdigits
    cases hdigits

/-- What can go wrong with a candidate, in order. -/
def candidateFailures (code : String) (row : JsonValue) (conditionId : List CodePoint) :
    List (Option RowFailure) :=
  [codeFailure code, digestFailure row, conditionFailure conditionId]

omit [UnicodeTable] in
/-- Stripping a condition takes no lone surrogate away. -/
theorem candidateFailures_stripPoints (code : String) (row : JsonValue)
    (conditionId : List CodePoint) :
    candidateFailures code row (stripPoints conditionId) =
      candidateFailures code row conditionId := by
  rw [candidateFailures, candidateFailures, conditionFailure, conditionFailure,
    any_isSurrogate_stripPoints]

/-- The code that the adapter wrote into a kept row. -/
def keptCode (row : JsonValue) (key : String) : String :=
  String.ofList (charsOf (textOrEmpty (row.getOr key)))

omit [UnicodeTable] in
theorem keptCode_withCode (fields : JsonValue.Fields) (key code : String) :
    keptCode (withCode fields key code) key = code := by
  rw [keptCode, getOr_withCode_self, textOrEmpty_str, charsOf_codePoints, String.ofList_toList]

/-- What can go wrong with a kept item of a realtime message, in order. -/
def realFailures (item : JsonValue) : List (Option RowFailure) :=
  let code := keptCode item "item"
  match item.getOr "values" with
  | .obj fields =>
    if textOrEmpty (item.getOr "type") = "0B" then tradeFailures code item (.obj fields)
    else
      let conditionId := stripPoints (textOrEmpty ((JsonValue.obj fields).getOr "841"))
      candidateFailures code item conditionId
  | _ => [some .refused]

theorem kept_real {item kept : JsonValue} (h : sanitizeRealItem item = .kept kept) :
    ∃ fields code, item = .obj fields ∧ kept = withCode fields "item" code ∧
      SixDigits code ∧
      (textOrEmpty (item.getOr "type") = "0B" ∨ textOrEmpty (item.getOr "type") = "02" ∧
        (upperPoints (textOrEmpty ((item.getOr "values").getOr "843")) = "I" ∨
          upperPoints (textOrEmpty ((item.getOr "values").getOr "843")) = "D") ∧
        stripPoints (textOrEmpty ((item.getOr "values").getOr "841")) ≠ []) := by
  unfold sanitizeRealItem at h
  split at h
  · next fields =>
    dsimp only at h
    split at h
    · cases h
    · next htype =>
      split at h
      · cases h
      · next code hcode =>
        split at h
        · cases h
        · next hcandidate =>
          have hsix := sixDigits_of_normalize hcode
          refine ⟨fields, code, rfl, (ItemVerdict.kept.inj h).symm, hsix, ?_⟩
          by_cases htrade : textOrEmpty ((JsonValue.obj fields).getOr "type") = "0B"
          · exact .inl htrade
          · have hother : textOrEmpty ((JsonValue.obj fields).getOr "type") = "02" := by
              by_contra hnot
              exact htype ⟨htrade, hnot⟩
            refine .inr ⟨hother, ?_, fun hblank => hcandidate ⟨hother, .inr hblank⟩⟩
            by_contra hnot
            exact hcandidate ⟨hother, .inl (not_or.mp hnot)⟩
  · cases h

section

variable [Sha256] {envelope : KiwoomSourceEnvelope} {utc : Datetime} {code : String}

omit [JsonValue.Printer] [UnicodeTable] [Sha256] in
theorem candidate_iff (eventType : CanonicalEventType) (h : eventType.isCandidate = true)
    (data : CandidateData) :
    eventType.isCandidate = true ↔ (EventData.candidate data).observation? = none :=
  iff_of_true h rfl

theorem verdict_candidateEvent (hdigest : ∀ text, (hexdigest text).toList.length = 64)
    (hutc : envelope.sourceTimestamp.astimezoneUtc = .ok utc) {row : JsonValue}
    (hcode : stockCode (firstTrue
      [row.getOr "item", (row.getOr "values").getOr "9001", row.getOr "stk_cd"]) = .ok code)
    {conditionId : List CodePoint} (hcondition : conditionId ≠ []) (itemIndex : Nat)
    (action : CandidateAction) :
    verdict RowFailure.ofError (candidateEvent envelope row itemIndex conditionId action) =
      firstFailure (candidateFailures code row conditionId) := by
  unfold candidateEvent candidateFailures
  rw [← firstFailure_none]
  refine verdict_bind (verdict_eq_none.mpr ⟨code, hcode⟩) fun code' hcode' => ?_
  obtain rfl : code = code' := Except.ok.inj (hcode.symm.trans hcode')
  rw [if_neg hcondition]
  unfold codeFailure CandidateData.make
  cases hcontract : isStockCode code.toList with
  | true =>
    have hdata : (CandidateData.Fields.mk action conditionId code).postInit = .ok () := by
      simp only [CandidateData.Fields.postInit, requireSourceStockCode, check_bind_eq_ok,
        ensure_eq_ok]
      exact ⟨hcondition, hcontract⟩
    rw [checked_of_ok hdata, if_pos rfl, firstFailure_none]
    cases action with
    | enter =>
      exact verdict_makeEvent hdigest envelope hutc row itemIndex hcontract
        (candidate_iff .candidateEntered rfl ⟨_, hdata⟩)
    | exit =>
      exact verdict_makeEvent hdigest envelope hutc row itemIndex hcontract
        (candidate_iff .candidateExited rfl ⟨_, hdata⟩)
  | false =>
    have hdata : (CandidateData.Fields.mk action conditionId code).postInit =
        .error ⟨.valueError, "source_stock_code는 6자리 종목코드여야 합니다"⟩ := by
      simp only [CandidateData.Fields.postInit, requireSourceStockCode, ensure, hcontract,
        Bool.false_eq_true, if_false, if_pos hcondition]
      rfl
    rw [checked_of_error hdata]
    rfl

theorem realtimeEvent_trade {item : JsonValue} {values : JsonValue.Fields}
    (hvalues : item.getOr "values" = .obj values) (htype : textOrEmpty (item.getOr "type") = "0B")
    (itemIndex : Nat) :
    realtimeEvent envelope item itemIndex =
      tradeEvent envelope item (.obj values) itemIndex >>= fun event => .ok (some event) := by
  have hmapping : asMapping (.obj values) "REAL.data.values" = .ok (.obj values) := rfl
  unfold realtimeEvent
  rw [hvalues, htype, hmapping]
  simp only [ok_bind_apply, pure_eq_ok_apply, if_pos]

theorem realtimeEvent_candidate {item : JsonValue} {values : JsonValue.Fields}
    (hvalues : item.getOr "values" = .obj values) (htype : textOrEmpty (item.getOr "type") = "02")
    (haction : upperPoints (textOrEmpty ((JsonValue.obj values).getOr "843")) = "I" ∨
      upperPoints (textOrEmpty ((JsonValue.obj values).getOr "843")) = "D") (itemIndex : Nat) :
    ∃ action, realtimeEvent envelope item itemIndex =
      candidateEvent envelope item itemIndex
        (stripPoints (textOrEmpty ((JsonValue.obj values).getOr "841"))) action >>=
          fun event => .ok (some event) := by
  have hmapping : asMapping (.obj values) "REAL.data.values" = .ok (.obj values) := rfl
  have hother : codePoints "02" ≠ codePoints "0B" := by decide
  have hdiffers : codePoints "D" ≠ codePoints "I" := by decide
  unfold realtimeEvent
  rw [hvalues, htype, hmapping]
  rcases haction with haction | haction
  · refine ⟨.enter, ?_⟩
    simp only [ok_bind_apply, pure_eq_ok_apply, if_neg hother, if_pos, haction]
  · refine ⟨.exit, ?_⟩
    simp only [ok_bind_apply, pure_eq_ok_apply, if_neg hother, if_neg hdiffers, if_pos, haction]

theorem verdict_realtimeEvent (hlaw : LawfulTable)
    (hdigest : ∀ text, (hexdigest text).toList.length = 64)
    (hutc : envelope.sourceTimestamp.astimezoneUtc = .ok utc) {item kept : JsonValue}
    (hkept : sanitizeRealItem item = .kept kept) (itemIndex : Nat) :
    verdict RowFailure.ofError (realtimeEvent envelope kept itemIndex) =
      firstFailure (realFailures kept) := by
  obtain ⟨fields, code, rfl, rfl, hsix, htype⟩ := kept_real hkept
  have hitem := getOr_withCode_self fields "item" code
  have htypes := getOr_withCode_of_ne fields code (show "item" ≠ "type" by decide)
  have hvalues := getOr_withCode_of_ne fields code (show "item" ≠ "values" by decide)
  rw [← htypes, ← hvalues] at htype
  unfold realFailures
  rw [keptCode_withCode]
  cases hmapping : (withCode fields "item" code).getOr "values" with
  | obj values =>
    rw [hmapping] at htype
    rcases htype with htrade | ⟨hcandidate, haction, hcondition⟩
    · rw [realtimeEvent_trade hmapping htrade, verdict_map]
      dsimp only
      rw [if_pos htrade]
      refine verdict_tradeEvent hdigest hutc ?_ itemIndex
      rw [hitem]
      exact stockCode_kept hlaw hsix _ (List.cons_ne_nil _ _)
    · obtain ⟨action, hevent⟩ := realtimeEvent_candidate hmapping hcandidate haction itemIndex
      rw [hevent, verdict_map]
      dsimp only
      rw [if_neg (by rw [hcandidate]; decide)]
      refine verdict_candidateEvent hdigest hutc ?_ hcondition itemIndex action
      rw [hitem]
      exact stockCode_kept hlaw hsix _ (List.cons_ne_nil _ _)
  | _ =>
    unfold realtimeEvent
    rw [hmapping]
    rfl

end

theorem kept_condition {row kept : JsonValue} (h : sanitizeConditionRow row = .kept kept) :
    ∃ fields code, row = .obj fields ∧ kept = withCode fields "item" code ∧
      SixDigits code := by
  unfold sanitizeConditionRow at h
  split at h
  · next fields =>
    split at h
    · cases h
    · next code hcode =>
      exact ⟨fields, code, rfl, (ItemVerdict.kept.inj h).symm, sixDigits_of_normalize hcode⟩
  · cases h

theorem kept_snapshot {requestedCodes : List String} {row kept : JsonValue}
    (h : sanitizeSnapshotRow requestedCodes row = .kept kept) :
    ∃ fields code, row = .obj fields ∧ kept = withCode fields "stk_cd" code ∧
      SixDigits code := by
  unfold sanitizeSnapshotRow at h
  split at h
  · next fields =>
    split at h
    · cases h
    · next code hcode =>
      split at h
      · exact ⟨fields, code, rfl, (ItemVerdict.kept.inj h).symm, sixDigits_of_normalize hcode⟩
      · cases h
  · cases h

/-- What can go wrong with a kept row of the first list of a condition. -/
def conditionFailures (conditionId : List CodePoint) (row : JsonValue) : List (Option RowFailure) :=
  candidateFailures (keptCode row "item") row conditionId

/-- What can go wrong with a kept row of a snapshot, in order. -/
def keptSnapshotFailures (row : JsonValue) : List (Option RowFailure) :=
  snapshotFailures (keptCode row "stk_cd") row

section

omit [JsonValue.Printer] [UnicodeTable]

theorem mem_sifted {verdicts : List ItemVerdict} {item : JsonValue} :
    item ∈ (sifted verdicts).1 ↔ .kept item ∈ verdicts := by
  unfold sifted
  rw [List.mem_filterMap]
  constructor
  · rintro ⟨verdict, hverdict, hitem⟩
    cases verdict with
    | kept kept =>
      cases hitem
      exact hverdict
    | _ => cases hitem
  · exact fun h => ⟨.kept item, h, rfl⟩

theorem mappingRows_objects {rows : List JsonValue} (h : ∀ row ∈ rows, ∃ fields, row = .obj fields)
    (fieldName : String) : mappingRows (.arr rows) fieldName = .ok rows := by
  unfold mappingRows
  dsimp only
  induction rows with
  | nil => rfl
  | cons row rows ih =>
    obtain ⟨fields, rfl⟩ := h row List.mem_cons_self
    rw [List.mapM_cons, ih fun row hrow => h row (List.mem_cons_of_mem _ hrow)]
    rfl

theorem verdict_rows {α : Type} {rows : List JsonValue} {f : JsonValue → Nat → Except Error α}
    {failures : JsonValue → Option RowFailure}
    (h : ∀ row ∈ rows, ∀ index, verdict RowFailure.ofError (f row index) = failures row) :
    verdict RowFailure.ofError (rows.zipIdx.mapM fun (row, index) => f row index) =
      firstFailure (rows.map failures) := by
  rw [verdict_mapM]
  congr 1
  have hfst : (rows.zipIdx.map Prod.fst).map failures = rows.map failures := by
    rw [List.zipIdx_map_fst]
  rw [← hfst, List.map_map]
  refine List.map_congr_left fun entry hentry => ?_
  exact h entry.1 (List.fst_mem_of_mem_zipIdx hentry) entry.2

end

/-- Take in a message of the websocket. -/
def LiveKiwoomAdapter.handleMessage (adapter : LiveKiwoomAdapter) (s : LiveSession)
    (payload : JsonValue.Fields) (now : ℚ) (heardAt receivedAt : Datetime)
    (send : JsonValue → Except Error Unit) : Except Error Unit × LiveSession :=
  let s := { s with lastMessageAt := some heardAt }
  let trnm := upperPoints (textOrEmpty ((JsonValue.obj payload).getOr "trnm"))
  if trnm = "PING" then
    match send (.obj payload) with
    | .ok () => (.ok (), s)
    | .error e => (.ok (), s.markClosed ("PING 응답 전송 실패: " ++ e.message))
  else if trnm = "REAL" then s.handleRealMessage payload receivedAt
  else if trnm = "CNSRREQ" then adapter.handleConditionResponse s payload now receivedAt
  else if isSuccessCode ((JsonValue.obj payload).getOr "return_code") = false then
    (.ok (), { s with controlErrors := s.controlErrors + 1 })
  else (.ok (), s)

/-- What can go wrong with the rows that the adapter keeps of a message of the websocket. -/
def messageFailures (payload : JsonValue.Fields) : List (Option RowFailure) :=
  if upperPoints (textOrEmpty ((JsonValue.obj payload).getOr "trnm")) = "REAL" then
    (sanitizeRealItems ((JsonValue.obj payload).getOr "data")).1.map fun item =>
      firstFailure (realFailures item)
  else
    let conditionId := stripPoints (textOrEmpty ((JsonValue.obj payload).getOr "seq"))
    (sanitizeConditionRows ((JsonValue.obj payload).getOr "data")).1.map fun row =>
      firstFailure (conditionFailures conditionId row)

/-- What can go wrong with the rows that the adapter keeps of a snapshot. -/
def snapshotMessageFailures (requestedCodes : List String) (payload : JsonValue.Fields) :
    List (Option RowFailure) :=
  let rows := (sanitizeSnapshotRows requestedCodes ((JsonValue.obj payload).getOr "atn_stk_infr")).1
  rows.map fun row => firstFailure (keptSnapshotFailures row)

theorem enqueue_queue {s : LiveSession} {payload : JsonValue.Fields} {receivedAt : Datetime}
    {envelope : KiwoomSourceEnvelope} {queue : List KiwoomSourceEnvelope}
    (h : (s.enqueue payload receivedAt).2.queue = queue ++ [envelope]) (hqueue : s.queue = queue) :
    ∃ sourceTimestamp, firstSourceClock (.obj payload) receivedAt = .ok sourceTimestamp ∧
      envelope = s.realtimeEnvelope (s.sequence + 1) payload sourceTimestamp receivedAt := by
  unfold LiveSession.enqueue at h
  dsimp only at h
  split at h
  · exact absurd (hqueue.symm.trans h) (by simp)
  · next built hbuilt =>
    obtain ⟨sourceTimestamp, hclock, hbuilt⟩ := bind_eq_ok.mp hbuilt
    obtain ⟨_, -, hbuilt⟩ := bind_eq_ok.mp hbuilt
    cases hbuilt
    rw [hqueue] at h
    exact ⟨sourceTimestamp, hclock, (List.singleton_inj.mp (List.append_cancel_left h)).symm⟩

omit [JsonValue.Printer] [UnicodeTable] in
theorem ne_snoc {α : Type} {as : List α} {a : α} : ¬ as = as ++ [a] := by simp

theorem firstSourceClock_utc {payload : JsonValue} {receivedAt sourceTimestamp : Datetime}
    (h : firstSourceClock payload receivedAt = .ok sourceTimestamp)
    (hcentral : receivedAt.date.Central) : ∃ utc, sourceTimestamp.astimezoneUtc = .ok utc := by
  obtain ⟨hfirst, hlast⟩ := hcentral.toOrdinal
  have hreceived : ∃ utc, receivedAt.astimezoneUtc = .ok utc :=
    receivedAt.astimezoneUtc_ok (by omega) (by omega)
  have hclock : ∀ value : JsonValue, sourceClockToDatetime value receivedAt = .ok sourceTimestamp →
      ∃ utc, sourceTimestamp.astimezoneUtc = .ok utc := by
    intro value hvalue
    unfold sourceClockToDatetime at hvalue
    dsimp only at hvalue
    split at hvalue
    · cases hvalue
      exact hreceived
    · obtain ⟨received, hkst, hvalue⟩ := bind_eq_ok.mp hvalue
      obtain ⟨microsecond, -, hvalue⟩ := bind_eq_ok.mp hvalue
      split at hvalue
      · next occurred hoccurred =>
        obtain rfl := Except.ok.inj hvalue
        have hdate : occurred.date = received.date := by
          unfold Datetime.ofFields at hoccurred
          split at hoccurred
          · cases hoccurred
            rfl
          · cases hoccurred
        have hnear := Datetime.date_near (Datetime.instant_astimezone hkst).1
        exact occurred.astimezoneUtc_ok (by rw [hdate]; omega) (by rw [hdate]; omega)
      · cases hvalue
  unfold firstSourceClock at h
  split at h
  · split at h
    · exact hclock _ h
    · cases h
      exact hreceived
  · cases h
    exact hreceived

theorem mem_sanitizeRealItems {data kept : JsonValue} (h : kept ∈ (sanitizeRealItems data).1) :
    ∃ item, sanitizeRealItem item = .kept kept := by
  unfold sanitizeRealItems at h
  split at h
  · obtain ⟨item, -, hitem⟩ := List.mem_map.mp (mem_sifted.mp h)
    exact ⟨item, hitem⟩
  · cases h

theorem mem_sanitizeConditionRows {data kept : JsonValue}
    (h : kept ∈ (sanitizeConditionRows data).1) :
    ∃ row, sanitizeConditionRow row = .kept kept := by
  unfold sanitizeConditionRows at h
  split at h
  · obtain ⟨row, -, hrow⟩ := List.mem_map.mp (mem_sifted.mp h)
    exact ⟨row, hrow⟩
  · cases h

theorem mem_sanitizeSnapshotRows {requestedCodes : List String} {data kept : JsonValue}
    (h : kept ∈ (sanitizeSnapshotRows requestedCodes data).1) :
    ∃ row, sanitizeSnapshotRow requestedCodes row = .kept kept := by
  unfold sanitizeSnapshotRows at h
  split at h
  · obtain ⟨row, -, hrow⟩ := List.mem_map.mp (mem_sifted.mp h)
    exact ⟨row, hrow⟩
  · cases h

section

variable [Sha256] {envelope : KiwoomSourceEnvelope} {payload : JsonValue.Fields} {utc : Datetime}

omit [Sha256] in
theorem sanitizeRealItems_objects (data : JsonValue) :
    ∀ item ∈ (sanitizeRealItems data).1, ∃ fields, item = .obj fields := by
  intro item hitem
  obtain ⟨source, hsource⟩ := mem_sanitizeRealItems hitem
  obtain ⟨fields, code, -, rfl, -⟩ := kept_real hsource
  exact ⟨_, rfl⟩

theorem normalizeWebsocket_real {items : List JsonValue}
    (htrnm : upperPoints (textOrEmpty ((JsonValue.obj payload).getOr "trnm")) = "REAL")
    (hitems : ∀ item ∈ items, ∃ fields, item = .obj fields)
    (hpayload : envelope.payload = withField payload "data" (.arr items)) :
    normalizeWebsocket envelope =
      (items.zipIdx.mapM fun (item, index) => realtimeEvent envelope item index) >>=
        fun events => .ok events.reduceOption := by
  have hnot : codePoints "REAL" ≠ codePoints "CNSRREQ" := by decide
  unfold normalizeWebsocket
  dsimp only
  rw [hpayload, getOr_withField_self,
    getOr_withField_of_ne _ _ (show "data" ≠ "trnm" by decide), htrnm, if_neg hnot,
    if_neg (not_not.mpr rfl), mappingRows_objects hitems, ok_bind_apply]
  rfl

theorem verdict_normalize_real (hlaw : LawfulTable)
    (hdigest : ∀ text, (hexdigest text).toList.length = 64)
    (htrnm : upperPoints (textOrEmpty ((JsonValue.obj payload).getOr "trnm")) = "REAL")
    (hutc : envelope.sourceTimestamp.astimezoneUtc = .ok utc)
    (hpayload : envelope.payload =
      withField payload "data"
        (.arr (sanitizeRealItems ((JsonValue.obj payload).getOr "data")).1)) :
    verdict RowFailure.ofError (normalizeWebsocket envelope) =
      firstFailure ((sanitizeRealItems ((JsonValue.obj payload).getOr "data")).1.map fun item =>
        firstFailure (realFailures item)) := by
  rw [normalizeWebsocket_real htrnm (sanitizeRealItems_objects _) hpayload]
  refine (verdict_map _ _).trans ?_
  refine verdict_rows (f := realtimeEvent envelope) fun item hitem index => ?_
  obtain ⟨source, hsource⟩ := mem_sanitizeRealItems hitem
  exact verdict_realtimeEvent hlaw hdigest hutc hsource index

theorem verdict_normalize_condition (hlaw : LawfulTable)
    (hdigest : ∀ text, (hexdigest text).toList.length = 64) {seq : List CodePoint}
    (hseq : stripPoints seq ≠ []) {data : JsonValue}
    (hutc : envelope.sourceTimestamp.astimezoneUtc = .ok utc)
    (hpayload : envelope.payload =
      LiveSession.conditionPayload (stripPoints seq) (sanitizeConditionRows data).1) :
    verdict RowFailure.ofError (normalizeWebsocket envelope) =
      firstFailure ((sanitizeConditionRows data).1.map fun row =>
        firstFailure (conditionFailures (stripPoints seq) row)) := by
  have hrows : ∀ row ∈ (sanitizeConditionRows data).1, ∃ fields, row = .obj fields := by
    intro row hrow
    obtain ⟨source, hsource⟩ := mem_sanitizeConditionRows hrow
    obtain ⟨fields, code, -, rfl, -⟩ := kept_condition hsource
    exact ⟨_, rfl⟩
  have hupper : upperText "CNSRREQ" = "CNSRREQ" := by
    refine upperText_eq_self fun c hc => ?_
    have hascii : ∀ c ∈ "CNSRREQ".toList, c.toNat < 128 ∧ c.toUpper = c := by decide
    rw [hlaw.asciiUpper c (hascii c hc).1, (hascii c hc).2]
  have htrnm : upperPoints (textOrEmpty (.str (codePoints "CNSRREQ"))) = codePoints "CNSRREQ" := by
    rw [textOrEmpty_str, upperPoints_codePoints, hupper]
  unfold normalizeWebsocket
  dsimp only
  rw [hpayload]
  obtain ⟨rows, hdata⟩ : ∃ rows, rows = (sanitizeConditionRows data).1 := ⟨_, rfl⟩
  rw [← hdata] at hrows ⊢
  have hget : ∀ seq : List CodePoint,
      (JsonValue.obj (LiveSession.conditionPayload seq rows)).getOr "trnm" =
        .str (codePoints "CNSRREQ") ∧
      (JsonValue.obj (LiveSession.conditionPayload seq rows)).getOr "seq" = .str seq ∧
      (JsonValue.obj (LiveSession.conditionPayload seq rows)).getOr "data" = .arr rows :=
    fun _ => ⟨rfl, rfl, rfl⟩
  obtain ⟨hgetTrnm, hgetSeq, hgetData⟩ := hget (stripPoints seq)
  rw [hgetTrnm, hgetSeq, hgetData, if_pos htrnm, mappingRows_objects hrows, ok_bind_apply,
    textOrEmpty_str, if_neg (stripPoints_stripPoints_ne hseq), hdata]
  refine verdict_rows (f := fun row index => candidateEvent envelope row index
    (stripPoints (stripPoints seq)) .enter) fun row hrow index => ?_
  obtain ⟨source, hsource⟩ := mem_sanitizeConditionRows hrow
  obtain ⟨fields, code, -, rfl, hsix⟩ := kept_condition hsource
  unfold conditionFailures
  rw [keptCode_withCode, ← candidateFailures_stripPoints]
  refine verdict_candidateEvent hdigest hutc ?_ (stripPoints_stripPoints_ne hseq) index .enter
  rw [getOr_withCode_self]
  exact stockCode_kept hlaw hsix _ (List.cons_ne_nil _ _)

omit [Sha256] in
theorem sanitizeSnapshotRows_objects (requestedCodes : List String) (data : JsonValue) :
    ∀ row ∈ (sanitizeSnapshotRows requestedCodes data).1, ∃ fields, row = .obj fields := by
  intro row hrow
  obtain ⟨source, hsource⟩ := mem_sanitizeSnapshotRows hrow
  obtain ⟨fields, code, -, rfl, -⟩ := kept_snapshot hsource
  exact ⟨_, rfl⟩

theorem normalizeSnapshot_rows {rows : List JsonValue}
    (hrows : ∀ row ∈ rows, ∃ fields, row = .obj fields)
    (hpayload : envelope.payload = LiveSession.snapshotPayload rows) :
    normalizeSnapshot envelope =
      rows.zipIdx.mapM fun (row, index) => snapshotEvent envelope row index := by
  have hapi : ¬ textOrEmpty (.str "ka10095") ≠ "ka10095" := not_not.mpr (textOrEmpty_str _)
  unfold normalizeSnapshot
  dsimp only
  rw [hpayload]
  show (if textOrEmpty (.str "ka10095") ≠ "ka10095" then _ else
    mappingRows (.arr rows) "ka10095.rows" >>= _) = _
  rw [if_neg hapi, mappingRows_objects hrows, ok_bind_apply]

theorem verdict_normalize_snapshot (hlaw : LawfulTable)
    (hdigest : ∀ text, (hexdigest text).toList.length = 64) {requestedCodes : List String}
    {data : JsonValue} (hutc : envelope.sourceTimestamp.astimezoneUtc = .ok utc)
    (hpayload : envelope.payload =
      LiveSession.snapshotPayload (sanitizeSnapshotRows requestedCodes data).1) :
    verdict RowFailure.ofError (normalizeSnapshot envelope) =
      firstFailure ((sanitizeSnapshotRows requestedCodes data).1.map fun row =>
        firstFailure (keptSnapshotFailures row)) := by
  rw [normalizeSnapshot_rows (sanitizeSnapshotRows_objects _ _) hpayload]
  refine verdict_rows (f := snapshotEvent envelope) fun row hrow index => ?_
  obtain ⟨source, hsource⟩ := mem_sanitizeSnapshotRows hrow
  obtain ⟨fields, code, -, rfl, hsix⟩ := kept_snapshot hsource
  unfold keptSnapshotFailures
  rw [keptCode_withCode]
  refine verdict_snapshotEvent hdigest hutc ?_ index
  rw [getOr_withCode_self]
  exact stockCode_kept hlaw hsix _ (List.cons_ne_nil _ _)

end

/-- The gateway takes an envelope in, or refuses it with a normalization error and stays as it
is. -/
def MarketGateway.Answers [Sha256] (g : MarketGateway) (envelope : KiwoomSourceEnvelope) : Prop :=
  ∀ e, (g.ingest envelope).1 = .error e →
    e.kind = .normalizationError ∧ (g.ingest envelope).2 = g

theorem answers_iff [Sha256] (g : MarketGateway) (envelope : KiwoomSourceEnvelope) :
    g.Answers envelope ↔ verdict RowFailure.ofError (normalize envelope) ≠ some .escaped := by
  unfold MarketGateway.Answers MarketGateway.ingest
  cases normalize envelope with
  | ok events =>
    refine iff_of_true ?_ nofun
    dsimp only
    split <;> exact nofun
  | error e =>
    dsimp only
    rw [verdict_error]
    unfold RowFailure.ofError
    split
    · next hkind => exact iff_of_true (by rintro _ ⟨⟩; exact ⟨hkind, rfl⟩) nofun
    · next hkind => exact iff_of_false (fun h => hkind (h e rfl).1) (not_not.mpr rfl)

theorem handleMessage_queue {adapter : LiveKiwoomAdapter} {s : LiveSession}
    {payload : JsonValue.Fields} {now : ℚ} {heardAt receivedAt : Datetime}
    {send : JsonValue → Except Error Unit} {envelope : KiwoomSourceEnvelope}
    (h : (adapter.handleMessage s payload now heardAt receivedAt send).2.queue =
      s.queue ++ [envelope]) :
    envelope.channel = .websocket ∧
      envelope.sourceSchemaVersion = SOURCE_SCHEMA_BY_CHANNEL .websocket ∧
      firstSourceClock (.obj envelope.payload) receivedAt = .ok envelope.sourceTimestamp ∧
      ((upperPoints (textOrEmpty ((JsonValue.obj payload).getOr "trnm")) = "REAL" ∧
          envelope.payload = withField payload "data"
            (.arr (sanitizeRealItems ((JsonValue.obj payload).getOr "data")).1)) ∨
        (upperPoints (textOrEmpty ((JsonValue.obj payload).getOr "trnm")) ≠ "REAL" ∧
          stripPoints (textOrEmpty ((JsonValue.obj payload).getOr "seq")) ≠ [] ∧ envelope.payload =
            LiveSession.conditionPayload
              (stripPoints (textOrEmpty ((JsonValue.obj payload).getOr "seq")))
              (sanitizeConditionRows ((JsonValue.obj payload).getOr "data")).1)) := by
  unfold LiveKiwoomAdapter.handleMessage at h
  dsimp only at h
  split at h
  · split at h <;> exact absurd h ne_snoc
  · split at h
    · next htrnm =>
      unfold LiveSession.handleRealMessage at h
      dsimp only at h
      split at h
      · exact absurd h ne_snoc
      · obtain ⟨sourceTimestamp, hclock, rfl⟩ := enqueue_queue h rfl
        exact ⟨rfl, rfl, hclock, .inl ⟨htrnm, rfl⟩⟩
    · next htrnm =>
      split at h
      · unfold LiveKiwoomAdapter.handleConditionResponse at h
        dsimp only at h
        split at h
        · split at h <;> exact absurd h ne_snoc
        · split at h
          · exact absurd h ne_snoc
          · split at h
            · next hrows =>
              obtain ⟨sourceTimestamp, hclock, rfl⟩ := enqueue_queue h rfl
              exact ⟨rfl, rfl, hclock, .inr ⟨htrnm, hrows.2, rfl⟩⟩
            · exact absurd h ne_snoc
      · split at h <;> exact absurd h ne_snoc

theorem handleSnapshot_envelope {s : LiveSession} {requestedCodes : List String}
    {payload : JsonValue.Fields} {receivedAt : Datetime} {envelope : KiwoomSourceEnvelope}
    (h : (s.handleSnapshot requestedCodes payload receivedAt).1 = .ok (some envelope)) :
    envelope.channel = .restSnapshot ∧
      envelope.sourceSchemaVersion = SOURCE_SCHEMA_BY_CHANNEL .restSnapshot ∧
      envelope.sourceTimestamp = receivedAt ∧
      envelope.payload = LiveSession.snapshotPayload
        (sanitizeSnapshotRows requestedCodes ((JsonValue.obj payload).getOr "atn_stk_infr")).1 := by
  unfold LiveSession.handleSnapshot at h
  dsimp only at h
  split at h
  · cases h
  · split at h
    · cases h
    · cases h
      exact ⟨rfl, rfl, rfl, rfl⟩

/-- The gateway takes in what the adapter hands over or refuses it with a normalization error,
unless the first kept row that gives no event has a number that is too large, a code with digits
outside ASCII, or no digest. -/
theorem answers_live_iff [Sha256] (hlaw : LawfulTable)
    (hdigest : ∀ text, (hexdigest text).toList.length = 64) (g : MarketGateway) (s : LiveSession)
    (payload : JsonValue.Fields) (receivedAt : Datetime) (hcentral : receivedAt.date.Central)
    (envelope : KiwoomSourceEnvelope) :
    (∀ (adapter : LiveKiwoomAdapter) (now : ℚ) (heardAt : Datetime)
      (send : JsonValue → Except Error Unit),
      (adapter.handleMessage s payload now heardAt receivedAt send).2.queue =
          s.queue ++ [envelope] →
        (g.Answers envelope ↔ firstFailure (messageFailures payload) ≠ some .escaped)) ∧
    ∀ requestedCodes : List String,
      (s.handleSnapshot requestedCodes payload receivedAt).1 = .ok (some envelope) →
        (g.Answers envelope ↔
          firstFailure (snapshotMessageFailures requestedCodes payload) ≠ some .escaped) := by
  constructor
  · intro adapter now heardAt send hqueue
    obtain ⟨hchannel, hschema, hclock, hpayload⟩ := handleMessage_queue hqueue
    obtain ⟨utc, hutc⟩ := firstSourceClock_utc hclock hcentral
    have hnormalize : normalize envelope = normalizeWebsocket envelope := by
      unfold normalize
      rw [hschema, hchannel, if_neg (not_not.mpr rfl)]
    rw [answers_iff, hnormalize]
    unfold messageFailures
    rcases hpayload with ⟨htrnm, hpayload⟩ | ⟨htrnm, hseq, hpayload⟩
    · rw [if_pos htrnm, verdict_normalize_real hlaw hdigest htrnm hutc hpayload]
    · rw [if_neg htrnm, verdict_normalize_condition hlaw hdigest hseq hutc hpayload]
  · intro requestedCodes hsnapshot
    obtain ⟨hchannel, hschema, hclock, hpayload⟩ := handleSnapshot_envelope hsnapshot
    obtain ⟨hfirst, hlast⟩ := hcentral.toOrdinal
    obtain ⟨utc, hutc⟩ := receivedAt.astimezoneUtc_ok (by omega) (by omega)
    have hnormalize : normalize envelope = normalizeSnapshot envelope := by
      unfold normalize
      rw [hschema, hchannel, if_neg (not_not.mpr rfl)]
    rw [← hclock] at hutc
    rw [answers_iff, hnormalize, verdict_normalize_snapshot hlaw hdigest hutc hpayload]
    rfl

section

omit [JsonValue.Printer] [UnicodeTable]

/-- The tables with the decimal digits of all scripts. -/
@[reducible] def decimalTable : UnicodeTable :=
  { UnicodeTable.ascii with isdigit := fun c => (decimalValue c).isSome }

theorem decimalValue_cases {c : Char} (h : (decimalValue c).isSome = true) :
    c.isDigit = true ∨ 128 ≤ c.toNat ∧ isSpace c = false := by
  unfold decimalValue at h
  split at h
  · next hdigit => exact .inl hdigit
  · refine .inr ?_
    rw [Option.isSome_map, List.find?_isSome] at h
    obtain ⟨z, hz, hrange⟩ := h
    have hfar : ∀ z ∈ digitZeros, 0x660 ≤ z ∧ (z + 10 ≤ 0x1680 ∨ 0x1680 < z) ∧
        (z + 10 ≤ 0x2000 ∨ 0x205F < z) ∧ (z + 10 ≤ 0x3000 ∨ 0x3000 < z) := by decide
    obtain ⟨hlow, hogham, hgeneral, hwide⟩ := hfar z hz
    simp only [Bool.and_eq_true, decide_eq_true_eq] at hrange
    refine ⟨by omega, ?_⟩
    unfold isSpace
    simp only [Bool.or_eq_false_iff, Bool.and_eq_false_iff, decide_eq_false_iff_not,
      beq_eq_false_iff_ne]
    omega

theorem toUpper_eq_self {c : Char} (h : 128 ≤ c.toNat ∨ c.isDigit = true) : c.toUpper = c := by
  unfold Char.toUpper
  rw [dif_neg]
  rintro ⟨hlow, hhigh⟩
  have hletter : 97 ≤ c.toNat ∧ c.toNat ≤ 122 := by
    simpa [UInt32.le_iff_toNat_le] using And.intro hlow hhigh
  rcases h with hfar | hdigit
  · omega
  · have hd : 48 ≤ c.toNat ∧ c.toNat ≤ 57 := by
      simpa [Char.isDigit, UInt32.le_iff_toNat_le] using hdigit
    omega

theorem lawfulTable_decimal : @LawfulTable decimalTable := by
  refine @LawfulTable.mk decimalTable (fun c h => ?_) (fun c h => ?_) (fun c h => ?_) fun c h => rfl
  · rcases decimalValue_cases h with hdigit | ⟨hfar, -⟩
    · exact congrArg (fun d => [d]) (toUpper_eq_self (.inr hdigit))
    · exact congrArg (fun d => [d]) (toUpper_eq_self (.inl hfar))
  · rcases decimalValue_cases h with hdigit | ⟨-, hblank⟩
    · exact isSpace_of_isDigit hdigit
    · exact hblank
  · show (decimalValue c).isSome = c.isDigit
    cases hdigit : c.isDigit with
    | true => rw [decimalValue_of_isDigit hdigit]; rfl
    | false =>
      by_contra hsome
      rcases decimalValue_cases (Bool.not_eq_false _ ▸ hsome) with hdigit' | ⟨hfar, -⟩
      · rw [hdigit] at hdigit'
        cases hdigit'
      · omega

/-- A stock with a code enters a condition. -/
def candidatePayload (code : String) : JsonValue.Fields :=
  [("trnm", .str "REAL"), ("data", .arr [.obj [("type", .str "02"), ("item", .str code),
    ("values", .obj [("841", .str "1"), ("843", .str "I")])]])]

def fridayMorning : Datetime := (Date.august 14).seoul 9 0

/-- The digests of the item of a candidate and of what identifies it. -/
@[reducible] def candidateSha256 : Sha256 where
  hexdigest text :=
    if text = "\x7b\"item\":\"005930\",\"type\":\"02\"," ++
        "\"values\":\x7b\"841\":\"1\",\"843\":\"I\"\x7d\x7d" then
      "ab4173133016a2411b70f9b78833aca9575dbd2992cb8d8b04423e6f6069976f"
    else "7334e2f8605fb582c7aa1ef3182feb0faa9a1e3bcd4b0aabc53d9eb2d0425d84"

/-- A candidate of the condition, as the socket hands it over. -/
theorem answers_live_iff_candidate :
    letI := JsonValue.Printer.plain
    letI : UnicodeTable := decimalTable
    letI : Sha256 := candidateSha256
    let envelope := LiveSession.realtimeEnvelope { sessionId := "live" } 1
      (withField (candidatePayload "005930") "data" (.arr
        (sanitizeRealItems ((JsonValue.obj (candidatePayload "005930")).getOr "data")).1))
      fridayMorning fridayMorning
    (MarketGateway.new {} ⟨fun _ _ => .ok 0⟩).Answers envelope ↔
      firstFailure (messageFailures (candidatePayload "005930")) ≠ some .escaped := by
  let _ := JsonValue.Printer.plain
  let _ := decimalTable
  let _ := candidateSha256
  intro envelope
  refine (answers_live_iff lawfulTable_decimal ?_ _ { sessionId := "live" } _ fridayMorning
    ⟨by decide, by decide⟩ envelope).1 {} 0 fridayMorning (fun _ => .ok ()) (by decide +kernel)
  intro text
  unfold hexdigest
  show (if _ then _ else _ : String).toList.length = 64
  split <;> decide

/-- A code of Arabic digits passes the adapter and the normalizer, and escapes from the contract. -/
theorem answers_live_fails_arabic :
    letI := JsonValue.Printer.plain
    letI : UnicodeTable := decimalTable
    letI : Sha256 := candidateSha256
    ∃ envelope, (LiveKiwoomAdapter.handleMessage {} { sessionId := "live" }
        (candidatePayload "٠٠٥٩٣٠") 0 fridayMorning fridayMorning fun _ => .ok ()).2.queue =
          [envelope] ∧
      ¬ (MarketGateway.new {} ⟨fun _ _ => .ok 0⟩).Answers envelope := by
  let _ := JsonValue.Printer.plain
  let _ := decimalTable
  let _ := candidateSha256
  refine ⟨LiveSession.realtimeEnvelope { sessionId := "live" } 1
    (withField (candidatePayload "٠٠٥٩٣٠") "data" (.arr
      (sanitizeRealItems ((JsonValue.obj (candidatePayload "٠٠٥٩٣٠")).getOr "data")).1))
    fridayMorning fridayMorning, by decide +kernel, ?_⟩
  rw [answers_iff]
  exact not_not.mpr (by decide +kernel)

-- A lone surrogate in any field of a kept row escapes as well.
example :
    letI := JsonValue.Printer.plain
    letI : UnicodeTable := decimalTable
    firstFailure (messageFailures [("trnm", .str "REAL"), ("data", .arr [.obj [("type", .str "02"),
      ("item", .str "005930"), ("name", .str [.surrogate 0]),
      ("values", .obj [("841", .str "1"), ("843", .str "I")])]])]) = some .escaped := by
  decide +kernel

end

end Dayjaview.Kiwoom
