import Dayjaview.Core.Grouping
import Dayjaview.Historical.BackfillAnswers

/-!
# What a run of the backfill stores

The slots without a file are asked for in order. A run that is cut off has stored some
of the first ones, and one that ends has stored as many as the answers say.
-/

namespace Dayjaview.Historical

open Program

theorem envelopePath_injective : Function.Injective envelopePath := by
  rintro ⟨market, day⟩ ⟨market', day'⟩ h
  have hmarket : market = market' := by
    have hchars := congrArg String.toList h
    cases market <;> cases market' <;> simp [envelopePath, Market.value] at hchars ⊢
  subst hmarket
  have hchars : natText day.year ++ ("/KRX_STOCK_DAILY." ++ (market.value ++ ("_" ++
      (day.isoformat ++ ".json")))).toList = natText day'.year ++ ("/KRX_STOCK_DAILY." ++
        (market.value ++ ("_" ++ (day'.isoformat ++ ".json")))).toList := by
    have hcut := (String.append_right_inj _).mp ((String.append_right_inj _).mp h)
    simpa only [String.toList_append, String.toList_ofList] using congrArg String.toList hcut
  have hhead : ∀ s : String, NoDigitHead ("/KRX_STOCK_DAILY." ++ s).toList := by
    intro s
    simp [NoDigitHead]
  obtain ⟨-, hrest⟩ := natText_append_inj (hhead _) (hhead _) hchars
  have hrest := String.toList_inj.mp hrest
  have hdate : day.isoformat ++ ".json" = day'.isoformat ++ ".json" :=
    (String.append_right_inj _).mp ((String.append_right_inj _).mp
      ((String.append_right_inj _).mp hrest))
  rw [Date.isoformat_injective ((String.append_left_inj _).mp hdate)]

theorem getLast?_envelopePath (slot : Slot) : (envelopePath slot).toList.getLast? = some 'n' := by
  have hend : envelopePath slot = (slot.market.value ++ "/" ++
      String.ofList (natText slot.marketDate.year) ++ "/KRX_STOCK_DAILY." ++ slot.market.value ++
        "_" ++ slot.marketDate.isoformat) ++ ".json" := by
    simp only [envelopePath, String.append_assoc]
  rw [hend, String.toList_append, List.getLast?_append]
  rfl

theorem getLast?_tempPath (path : String) : (tempPath path).toList.getLast? = some 'p' := by
  simp [tempPath, List.getLast?_append]

theorem envelopePath_ne_tempPath (slot : Slot) (path : String) :
    envelopePath slot ≠ tempPath path := by
  intro h
  have hlast := getLast?_envelopePath slot
  rw [h, getLast?_tempPath] at hlast
  simp at hlast

theorem envelopePath_ne_status (slot : Slot) : envelopePath slot ≠ STATUS_FILENAME := by
  intro h
  have hchars := congrArg String.toList h
  cases hmarket : slot.market <;>
    simp [envelopePath, STATUS_FILENAME, Market.value, hmarket] at hchars

/-- What is in a file, apart from the time of its collection. -/
def FileContent.payload? : FileContent → Option (List (String × Json))
  | .envelope stored => some stored.payload
  | .status _ => none

/-- What is stored for a slot, apart from the time of its collection. -/
def storedAt (files : Files) (slot : Slot) : Option (Option (List (String × Json))) :=
  (files.get? (envelopePath slot)).map FileContent.payload?

def absent (files : Files) (slots : List Slot) : List Slot :=
  slots.filter fun slot => (files.get? (envelopePath slot)).isNone

/-- Some answers were added to some files. -/
def Stored (source : Slot → SourceAnswer) (files : Files) (made : List Slot) (now : Files) : Prop :=
  ∀ slot, storedAt now slot =
    if slot ∈ made then some (source slot).payload? else storedAt files slot

section Stored

variable {source : Slot → SourceAnswer} {files now later : Files} {made : List Slot}

theorem Stored.refl : Stored source files [] files := by
  intro slot
  simp

theorem Stored.congr (h : Stored source files made now)
    (hsame : ∀ slot, later.get? (envelopePath slot) = now.get? (envelopePath slot)) :
    Stored source files made later := by
  intro slot
  rw [storedAt, hsame]
  exact h slot

variable {slot : Slot}

theorem Stored.concat {envelope : Envelope} (h : Stored source files made now)
    (hanswer : source slot = .payload envelope.payload) (hsame : ∀ s, later.get? (envelopePath s) =
      if s = slot then some (.envelope envelope) else now.get? (envelopePath s)) :
    Stored source files (made ++ [slot]) later := by
  intro s
  rw [storedAt, hsame]
  by_cases hs : s = slot
  · subst hs
    simp [hanswer, SourceAnswer.payload?, FileContent.payload?]
  · rw [if_neg hs]
    simpa [hs, storedAt] using h s

theorem Stored.isSome_get? (h : Stored source files made now) (hslot : slot ∉ made) :
    (now.get? (envelopePath slot)).isSome = (files.get? (envelopePath slot)).isSome := by
  have hsame := h slot
  rw [if_neg hslot] at hsame
  simpa [storedAt] using congrArg Option.isSome hsame

theorem Stored.trans {more : List Slot} (h : Stored source files made now)
    (h' : Stored source now more later) : Stored source files (made ++ more) later := by
  intro slot
  rw [h' slot]
  by_cases hmore : slot ∈ more
  · simp [hmore]
  · simpa [hmore] using h slot

theorem Stored.isNone_get? (h : Stored source files made now)
    (hslot : (files.get? (envelopePath slot)).isNone = true) :
    (now.get? (envelopePath slot)).isNone = decide (slot ∉ made) := by
  by_cases hmade : slot ∈ made
  · have hstored := h slot
    rw [if_pos hmade, storedAt, Option.map_eq_some_iff] at hstored
    obtain ⟨content, hcontent, -⟩ := hstored
    simp [hcontent, hmade]
  · have hsame := h.isSome_get? hmade
    rw [Option.isNone_iff_eq_none] at hslot
    rw [hslot] at hsame
    simpa [hmade] using hsame

theorem absent_of_stored {slots first last : List Slot} {k : Nat} (hnodup : slots.Nodup)
    (hfirst : absent files slots = first ++ last)
    (h : Stored source files ((absent files slots).take k) now) :
    absent now first = first.drop k := by
  have hmissing : ∀ slot ∈ first, (files.get? (envelopePath slot)).isNone = true := by
    intro slot hslot
    have hmem : slot ∈ absent files slots := by
      rw [hfirst]
      exact List.mem_append_left _ hslot
    exact (List.mem_filter.mp hmem).2
  have habsent : absent now first =
      first.filter fun slot => decide (slot ∉ (absent files slots).take k) :=
    List.filter_congr fun slot hslot => h.isNone_get? (hmissing slot hslot)
  rw [habsent, hfirst]
  refine filter_notMem_take ?_ k
  rw [← hfirst]
  exact hnodup.filter _

theorem absent_slots_of_stored {slots : List Slot} {k : Nat} (hnodup : slots.Nodup)
    (h : Stored source files ((absent files slots).take k) now) :
    absent now slots = (absent files slots).drop k := by
  rw [← absent_of_stored hnodup (List.append_nil _).symm h]
  have hsub : ∀ slot, (now.get? (envelopePath slot)).isNone = true →
      (files.get? (envelopePath slot)).isNone = true := by
    intro slot hnone
    have hstored := h slot
    split at hstored
    · rw [Option.isNone_iff_eq_none] at hnone
      simp [storedAt, hnone] at hstored
    · rw [Option.isNone_iff_eq_none] at hnone
      have hmapped : storedAt files slot = none := by
        rw [← hstored, storedAt, hnone]
        rfl
      simpa [storedAt] using hmapped
  rw [absent, absent, absent, List.filter_filter]
  refine List.filter_congr fun slot _ => ?_
  cases hnone : (now.get? (envelopePath slot)).isNone with
  | false => rfl
  | true => rw [hsub slot hnone]; rfl

end Stored

/-- Files and progress are as they were. -/
def Undisturbed (s t : Process) : Prop := t.files = s.files ∧ t.progress = s.progress

/-- What a request brings in the end. -/
def Answered (around : Surroundings) (slot : Slot) : Except Error Backfill.Fetched → Prop
  | .ok (.envelope envelope) => around.source slot = .payload envelope.payload
  | .ok (.transportError _) =>
    (∃ messageKo, around.source slot = .transportError messageKo) ∨ ∃ i, around.outage i = true
  | .ok (.contractError messageKo) => around.source slot = .contractError messageKo
  | .error e => around.source slot = .raised e

namespace Backfill

variable {around : Surroundings}

theorem request_answer (slot : Slot) (s : Process) :
    (backfillHandler around (.request slot) s).1 = around.source slot ∨
    ∃ messageKo, (backfillHandler around (.request slot) s).1 = .transportError messageKo ∧
      ∃ i, around.outage i = true := by
  by_cases hout : around.outage s.requests = true
  · exact .inr ⟨_, if_pos hout, _, hout⟩
  · exact .inl (if_neg hout)

theorem contract_fetchOnce (slot : Slot) {s t : Process} (h : Undisturbed s t) :
    (fetchOnce slot).Contract (backfillHandler around) (Undisturbed s)
      (fun result u => Undisturbed s u ∧ Answered around slot result) t := by
  unfold fetchOnce
  refine Contract.call_bind h (Contract.call_bind h ?_)
  have hafter : Undisturbed s
      (backfillHandler around (.request slot) (backfillHandler around .now t).2).2 := h
  rcases request_answer slot (backfillHandler around .now t).2 with hanswer |
      ⟨messageKo, hanswer, hout⟩
  · rw [hanswer]
    cases hsource : around.source slot with
    | payload fields => exact Contract.pure hafter ⟨hafter, hsource⟩
    | transportError messageKo => exact Contract.pure hafter ⟨hafter, .inl ⟨messageKo, hsource⟩⟩
    | contractError messageKo => exact Contract.pure hafter ⟨hafter, hsource⟩
    | raised e => exact Contract.raise hafter ⟨hafter, hsource⟩
  · rw [hanswer]
    exact Contract.pure hafter ⟨hafter, .inr hout⟩

theorem contract_fetch (slot : Slot) (backoff : List Nat) {s t : Process} (h : Undisturbed s t) :
    (fetch slot backoff).Contract (backfillHandler around) (Undisturbed s)
      (fun result u => Undisturbed s u ∧ Answered around slot result) t := by
  induction backoff generalizing t with
  | nil => exact contract_fetchOnce slot h
  | cons pause backoff ih =>
    refine (contract_fetchOnce slot h).bind ?_ fun e u hu => hu
    rintro fetched u ⟨hu, hanswer⟩
    cases fetched with
    | envelope envelope => exact Contract.pure hu ⟨hu, hanswer⟩
    | transportError messageKo => exact ih hu
    | contractError messageKo => exact ih hu

end Backfill

/-- A run that made some requests, and nothing ended it. -/
structure Ready (around : Surroundings) (files : Files) (made : List Slot) (s : Process) :
    Prop where
  stored : Stored around.source files made s.files
  calls : s.progress.callsMade = made.length
  streaks : ∀ market, s.progress.emptyStreak market = emptyStreak around.source market made
  status : s.progress.status = .complete
  reason : s.progress.reason = none

/-- Of some requests the first ones are stored. -/
def Reached (around : Surroundings) (files : Files) (made rest : List Slot) (s : Process) : Prop :=
  ∃ k, k ≤ (settle around.source made rest).1 ∧
    Stored around.source files (made ++ rest.take k) s.files

/-- The call budget or the network stopped the run. -/
def CutShort (b : Backfill) (around : Surroundings) (calls : Nat) (p : Progress) : Prop :=
  p.status = .stopped ∧ (b.maxCalls ≤ calls ∨ ∃ i, around.outage i = true)

def Ended (b : Backfill) (around : Surroundings) (files : Files) (made rest : List Slot) :
    Except Error Bool → Process → Prop
  | .ok false, s =>
    (settle around.source made rest).2 = .complete ∧ Ready around files (made ++ rest) s
  | .ok true, s => ∃ k, k ≤ (settle around.source made rest).1 ∧
    Stored around.source files (made ++ rest.take k) s.files ∧
      (CutShort b around (made.length + k) s.progress ∨
        k = (settle around.source made rest).1 ∧ (settle around.source made rest).2 ≠ .complete ∧
          (settle around.source made rest).2.verdict = some (s.progress.status, s.progress.reason))
  | .error e, s => (settle around.source made rest).2 = .raised e ∧
    Stored around.source files (made ++ rest.take (settle around.source made rest).1) s.files

/-- A program asks for the slots of a list that have no file, and says whether it was stopped. -/
def Collects (b : Backfill) (around : Surroundings) (files : Files) (p : Program BackfillOp Bool)
    (slots : List Slot) : Prop :=
  ∀ made s, slots.Nodup → (∀ slot ∈ slots, slot ∉ made) → Ready around files made s →
    p.Contract (backfillHandler around) (Reached around files made (absent files slots))
      (Ended b around files made (absent files slots)) s

section Collects

variable {b : Backfill} {around : Surroundings} {files : Files} {made rest : List Slot}

theorem Stored.reached {s : Process} (h : Stored around.source files made s.files) :
    Reached around files made rest s := ⟨0, Nat.zero_le _, by simpa using h⟩

theorem Collects.nil : Collects b around files (pure false) [] := by
  intro made s hnodup hnew hs
  refine Contract.pure hs.stored.reached ⟨rfl, ?_⟩
  simpa [absent] using hs

theorem Collects.update {p : Program BackfillOp Bool} {slots : List Slot}
    {change : Progress → Progress} (h : Collects b around files p slots)
    (hcalls : ∀ p, (change p).callsMade = p.callsMade)
    (hstreak : ∀ p, (change p).emptyStreak = p.emptyStreak)
    (hstatus : ∀ p, (change p).status = p.status) (hreason : ∀ p, (change p).reason = p.reason) :
    Collects b around files (do call (.update change); p) slots := by
  intro made s hnodup hnew hs
  refine Contract.call_bind hs.stored.reached (h made _ hnodup hnew ?_)
  exact ⟨hs.stored, (hcalls _).trans hs.calls, fun market =>
    (congrFun (hstreak _) market).trans (hs.streaks market), (hstatus _).trans hs.status,
      (hreason _).trans hs.reason⟩

theorem Collects.append {p q : Program BackfillOp Bool} {xs ys : List Slot}
    (hp : Collects b around files p xs) (hq : Collects b around files q ys) :
    Collects b around files (do let stopped ← p; if stopped then return true else q)
      (xs ++ ys) := by
  intro made s hnodup hnew hs
  have habsent : absent files (xs ++ ys) = absent files xs ++ absent files ys :=
    List.filter_append ..
  rw [habsent]
  rw [List.nodup_append] at hnodup
  obtain ⟨hxs, hys, hdisjoint⟩ := hnodup
  have hle := settle_fst_le around.source made (absent files xs)
  have hmore := settle_fst_le_append around.source made (absent files xs) (absent files ys)
  have hearly : ∀ k, k ≤ (settle around.source made (absent files xs)).1 →
      (absent files xs ++ absent files ys).take k = (absent files xs).take k := fun k hk =>
    List.take_append_of_le_length (by omega)
  have hfirst := hp made s hxs (fun slot hslot => hnew slot (List.mem_append_left _ hslot)) hs
  refine (hfirst.mono (J := Reached around files made (absent files xs ++ absent files ys)) ?_
    fun r t ht => ht).bind ?_ ?_
  · rintro t ⟨k, hk, hstored⟩
    exact ⟨k, by omega, by rwa [hearly k hk]⟩
  · intro stopped t ht
    cases stopped with
    | true =>
      obtain ⟨k, hk, hstored, hended⟩ := ht
      have hk' : k ≤ (settle around.source made (absent files xs ++ absent files ys)).1 := by omega
      refine Contract.pure ⟨k, hk', by rwa [hearly k hk]⟩ ⟨k, hk', by rwa [hearly k hk], ?_⟩
      rcases hended with hcut | ⟨heq, hne, hverdict⟩
      · exact .inl hcut
      · rw [settle_append_of_ne hne]
        exact .inr ⟨heq, hne, hverdict⟩
    | false =>
      obtain ⟨hcomplete, hready⟩ := ht
      have hsettle := settle_append_of_complete hcomplete (absent files ys)
      have hlate : ∀ k, (absent files xs ++ absent files ys).take ((absent files xs).length + k) =
          absent files xs ++ (absent files ys).take k := fun k => List.take_length_add_append k
      have hrest : ∀ slot ∈ ys, slot ∉ made ++ absent files xs := by
        intro slot hslot hmem
        rcases List.mem_append.mp hmem with hmade | hxs'
        · exact hnew slot (List.mem_append_right _ hslot) hmade
        · exact hdisjoint slot (List.mem_of_mem_filter hxs') slot hslot rfl
      refine (hq _ t hys hrest hready).mono ?_ ?_
      · rintro u ⟨k, hk, hstored⟩
        refine ⟨(absent files xs).length + k, ?_, ?_⟩
        · rw [hsettle]
          exact Nat.add_le_add_left hk _
        · rwa [hlate, ← List.append_assoc]
      · rintro (e | stopped) u hu
        · obtain ⟨hraised, hstored⟩ := hu
          refine ⟨by rw [hsettle]; exact hraised, ?_⟩
          rw [hsettle, hlate, ← List.append_assoc]
          exact hstored
        · cases stopped with
          | false =>
            refine ⟨by rw [hsettle]; exact hu.1, ?_⟩
            rw [← List.append_assoc]
            exact hu.2
          | true =>
            obtain ⟨k, hk, hstored, hended⟩ := hu
            refine ⟨(absent files xs).length + k, ?_, ?_, ?_⟩
            · rw [hsettle]
              exact Nat.add_le_add_left hk _
            · rwa [hlate, ← List.append_assoc]
            · rw [hsettle]
              rcases hended with ⟨hstatus, hcut⟩ | ⟨heq, hne, hverdict⟩
              · refine .inl ⟨hstatus, hcut.imp_left fun hcalls => ?_⟩
                rw [List.length_append, Nat.add_assoc] at hcalls
                exact hcalls
              · exact .inr ⟨by rw [heq], hne, hverdict⟩
  · rintro e t ⟨hraised, hstored⟩
    have hne : (settle around.source made (absent files xs)).2 ≠ .complete := by
      rw [hraised]
      exact Outcome.noConfusion
    refine ⟨by rw [settle_append_of_ne hne]; exact hraised, ?_⟩
    rw [settle_append_of_ne hne, hearly _ (Nat.le_refl _)]
    exact hstored

end Collects

/-- Some files with one that took the place of another. -/
def replaced (files : Files) (path : String) (content : FileContent) : Files :=
  ((files.set (tempPath path) content).erase (tempPath path)).set path content

theorem get?_set_tempPath (files : Files) (path : String) (content : FileContent) (slot : Slot) :
    (files.set (tempPath path) content).get? (envelopePath slot) = files.get? (envelopePath slot) :=
  Dict.get?_set_of_ne _ _ (envelopePath_ne_tempPath slot path)

theorem get?_replaced (files : Files) (path : String) (content : FileContent) (slot : Slot) :
    (replaced files path content).get? (envelopePath slot) =
      if envelopePath slot = path then some content else files.get? (envelopePath slot) := by
  rw [replaced, Dict.get?_set, Dict.get?_erase, if_neg (envelopePath_ne_tempPath slot path),
    get?_set_tempPath]

/-- The files of the slots and the counts are as they were. -/
structure Kept (s t : Process) : Prop where
  files : ∀ slot, t.files.get? (envelopePath slot) = s.files.get? (envelopePath slot)
  calls : t.progress.callsMade = s.progress.callsMade
  streak : t.progress.emptyStreak = s.progress.emptyStreak
  status : t.progress.status = s.progress.status
  reason : t.progress.reason = s.progress.reason

section Written

variable {b : Backfill} {around : Surroundings} {files : Files} {made rest : List Slot}
  {s t : Process}

theorem Kept.refl : Kept s s := ⟨fun _ => rfl, rfl, rfl, rfl, rfl⟩

theorem Undisturbed.kept (h : Undisturbed s t) : Kept s t :=
  ⟨fun slot => by rw [h.1], by rw [h.2], by rw [h.2], by rw [h.2], by rw [h.2]⟩

theorem Ready.kept (hs : Ready around files made s) (h : Kept s t) : Ready around files made t where
  stored := hs.stored.congr h.files
  calls := h.calls.trans hs.calls
  streaks market := (congrFun h.streak market).trans (hs.streaks market)
  status := h.status.trans hs.status
  reason := h.reason.trans hs.reason

theorem Reached.kept (hs : Reached around files made rest s) (h : Kept s t) :
    Reached around files made rest t := by
  obtain ⟨k, hk, hstored⟩ := hs
  exact ⟨k, hk, hstored.congr h.files⟩

theorem contract_writeAtomic {I : Process → Prop} {Q : Except Error Unit → Process → Prop}
    (path : String) (content : FileContent) (hs : I s)
    (htemp : I { s with files := s.files.set (tempPath path) content })
    (hdone : I { s with files := replaced s.files path content })
    (hQ : Q (.ok ()) { s with files := replaced s.files path content }) :
    (Backfill.writeAtomic path content).Contract (backfillHandler around) I Q s := by
  have hreplace : backfillHandler around (.replace (tempPath path) path)
      { s with files := s.files.set (tempPath path) content } =
        ((), { s with files := replaced s.files path content }) := by
    simp [backfillHandler, replaced]
  refine Contract.call_bind hs (Contract.call htemp ?_ ?_)
  · show I (backfillHandler around (.replace (tempPath path) path)
      { s with files := s.files.set (tempPath path) content }).2
    rw [hreplace]
    exact hdone
  · show Q (.ok ()) (backfillHandler around (.replace (tempPath path) path)
      { s with files := s.files.set (tempPath path) content }).2
    rw [hreplace]
    exact hQ

theorem contract_writeStatus (final : Bool) (h : Kept s t) :
    (b.writeStatus final).Contract (backfillHandler around) (Kept s)
      (fun result u => result = .ok () ∧ Kept s u) t := by
  have hdone : ∀ content, Kept s
      { t with files := replaced t.files STATUS_FILENAME content, readings := t.readings + 1 } := by
    intro content
    refine { h with files := fun slot => ?_ }
    rw [get?_replaced, if_neg (envelopePath_ne_status slot)]
    exact h.files slot
  have htemp : ∀ content, Kept s
      { t with
        files := t.files.set (tempPath STATUS_FILENAME) content, readings := t.readings + 1 } :=
    fun content =>
    { h with files := fun slot => (get?_set_tempPath _ _ _ slot).trans (h.files slot) }
  exact Contract.call_bind h (Contract.call_bind h
    (contract_writeAtomic _ _ { h with } (htemp _) (hdone _) ⟨rfl, hdone _⟩))

theorem contract_offerStatus (h : Kept s t) :
    b.offerStatus.Contract (backfillHandler around) (Kept s)
      (fun result u => result = .ok () ∧ Kept s u) t := by
  refine Contract.call_bind h ?_
  split
  · exact Contract.call_bind h (contract_writeStatus false { h with })
  · exact Contract.pure h ⟨rfl, h⟩

end Written

/-- An answer was looked at: the run is stopped by the last of the empty ones, or goes on. -/
def Noted (around : Surroundings) (files : Files) (made : List Slot) (slot : Slot) :
    Except Error Bool → Process → Prop
  | .ok true, s => EMPTY_STREAK_LIMIT ≤ emptyStreak around.source slot.market (made ++ [slot]) ∧
    Stored around.source files (made ++ [slot]) s.files ∧
      s.progress.status = .failed ∧ s.progress.reason = some .dataUnavailable
  | .ok false, s => emptyStreak around.source slot.market (made ++ [slot]) < EMPTY_STREAK_LIMIT ∧
    Ready around files (made ++ [slot]) s
  | .error _, _ => False

/-- The answer for a slot was stored and not looked at. -/
structure Taken (around : Surroundings) (files : Files) (made : List Slot) (slot : Slot)
    (s : Process) : Prop where
  stored : Stored around.source files (made ++ [slot]) s.files
  calls : s.progress.callsMade = made.length + 1
  streaks : ∀ market, s.progress.emptyStreak market = emptyStreak around.source market made
  status : s.progress.status = .complete
  reason : s.progress.reason = none

section Slot

variable {b : Backfill} {around : Surroundings} {files : Files} {made : List Slot} {slot : Slot}
  {s : Process}

theorem absent_singleton (files : Files) (slot : Slot) : absent files [slot] =
    if (files.get? (envelopePath slot)).isNone then [slot] else [] := by
  by_cases h : (files.get? (envelopePath slot)).isNone <;> simp [absent, h]

theorem settle_singleton (hserved : Served around.source slot) :
    settle around.source made [slot] =
      (1, if EMPTY_STREAK_LIMIT ≤ emptyStreak around.source slot.market (made ++ [slot]) then
        .unavailable else .complete) := by
  obtain ⟨fields, rows, hanswer, hrows⟩ := hserved
  by_cases hstreak : EMPTY_STREAK_LIMIT ≤ emptyStreak around.source slot.market (made ++ [slot])
  · simp [settle, halt, hanswer, hrows, hstreak]
  · simp [settle, halt, hanswer, hrows, hstreak]

theorem contract_note {I : Process → Prop} {fields : List (String × Json)} {rows : Nat}
    (hanswer : around.source slot = .payload fields) (hrows : rowCount fields = .ok rows)
    (hI : ∀ t, Stored around.source files (made ++ [slot]) t.files → I t)
    (hs : Taken around files made slot s) :
    (Backfill.note slot rows).Contract (backfillHandler around) I
      (Noted around files made slot) s := by
  unfold Backfill.note
  have hempty : answersEmpty around.source slot = (rows == 0) := by
    simp [answersEmpty, hanswer, hrows]
  by_cases hzero : rows = 0
  · have hstreak : ∀ market, Function.update s.progress.emptyStreak slot.market
        (s.progress.emptyStreak slot.market + 1) market =
          emptyStreak around.source market (made ++ [slot]) := by
      intro market
      rw [emptyStreak_concat, hempty, hzero, hs.streaks]
      by_cases hmarket : slot.market = market
      · subst hmarket
        simp
      · rw [Function.update_of_ne (Ne.symm hmarket), if_neg hmarket, hs.streaks]
    rw [if_pos hzero]
    refine Contract.call_bind (hI _ hs.stored) (Contract.call_bind (hI _ hs.stored) ?_)
    split
    · rename_i hlimit
      refine Contract.call_bind (hI _ hs.stored) (Contract.pure (hI _ hs.stored) ?_)
      exact ⟨(hstreak slot.market).symm ▸ hlimit, hs.stored, rfl, rfl⟩
    · rename_i hlimit
      refine Contract.pure (hI _ hs.stored) ⟨?_, hs.stored, ?_, hstreak, hs.status, hs.reason⟩
      · exact (hstreak slot.market).symm ▸ Nat.not_le.mp hlimit
      · exact hs.calls.trans (by simp)
  · have hstreak : ∀ market, Function.update s.progress.emptyStreak slot.market 0 market =
        emptyStreak around.source market (made ++ [slot]) := by
      intro market
      rw [emptyStreak_concat, hempty]
      by_cases hmarket : slot.market = market
      · subst hmarket
        simp [hzero]
      · rw [Function.update_of_ne (Ne.symm hmarket), if_neg hmarket, hs.streaks]
    rw [if_neg hzero]
    refine Contract.call_bind (hI _ hs.stored) (Contract.pure (hI _ hs.stored)
      ⟨?_, hs.stored, ?_, hstreak, hs.status, hs.reason⟩)
    · rw [← hstreak, Function.update_self]
      decide
    · exact hs.calls.trans (by simp)

theorem contract_keep {envelope : Envelope} (hs : Ready around files made s)
    (hanswer : around.source slot = .payload envelope.payload) :
    (b.keep slot envelope).Contract (backfillHandler around) (Reached around files made [slot])
      (Ended b around files made [slot]) s := by
  have hone : 1 ≤ (settle around.source made [slot]).1 := by
    cases hrows : rowCount envelope.payload with
    | error e => simp [settle, halt, hanswer, hrows]
    | ok rows => rw [settle_singleton ⟨_, _, hanswer, hrows⟩]
  have hreached : ∀ t : Process, Stored around.source files (made ++ [slot]) t.files →
      Reached around files made [slot] t := fun t ht => ⟨1, hone, ht⟩
  have hstored : Stored around.source files (made ++ [slot])
      (replaced s.files (envelopePath slot) (.envelope envelope)) := by
    refine hs.stored.concat hanswer fun slot' => ?_
    rw [get?_replaced]
    by_cases h : slot' = slot
    · rw [if_pos h, if_pos (congrArg envelopePath h)]
    · rw [if_neg h, if_neg fun h' => h (envelopePath_injective h')]
  refine Contract.call_bind hs.stored.reached ?_
  refine Contract.bind (Q := fun result t => result = .ok () ∧ t =
    { s with
      files := replaced s.files (envelopePath slot) (.envelope envelope)
      progress := { s.progress with
        callsMade := s.progress.callsMade + 1
        callsSinceStatus := s.progress.callsSinceStatus + 1 } })
    (contract_writeAtomic _ _ hs.stored.reached ?_ (hreached _ hstored) ⟨rfl, rfl⟩) ?_ ?_
  · exact (hs.stored.congr (get?_set_tempPath _ _ _)).reached
  · rintro - t ⟨-, rfl⟩
    refine Contract.call_bind (hreached _ hstored) ?_
    cases hrows : rowCount envelope.payload with
    | error e =>
      have hsettle : settle around.source made [slot] = (1, .raised e) := by
        simp [settle, halt, hanswer, hrows]
      refine Contract.raise (hreached _ hstored) ⟨by rw [hsettle], ?_⟩
      rw [hsettle]
      exact hstored
    | ok rows =>
      rw [ofExcept_ok_bind]
      have hsettle : settle around.source made [slot] = _ := settle_singleton ⟨_, _, hanswer, hrows⟩
      refine Contract.bind (contract_note hanswer hrows hreached ?_) ?_ fun e t ht => ht.elim
      · exact ⟨hstored, congrArg (· + 1) hs.calls, hs.streaks, hs.status, hs.reason⟩
      · rintro stopped t ht
        cases stopped with
        | true =>
          obtain ⟨hlimit, hstored, hstatus, hreason⟩ := ht
          refine Contract.pure (hreached _ hstored) ⟨1, hone, hstored, .inr ?_⟩
          rw [hsettle, if_pos hlimit, hstatus, hreason]
          exact ⟨rfl, Outcome.noConfusion, rfl⟩
        | false =>
          obtain ⟨hlimit, hready⟩ := ht
          refine ((contract_offerStatus Kept.refl).mono (fun u hu =>
            hreached u (hready.stored.congr hu.files)) fun r u hu => hu).bind ?_ ?_
          · rintro - u ⟨-, hu⟩
            refine Contract.pure (hreached u (hready.stored.congr hu.files)) ⟨?_, hready.kept hu⟩
            rw [hsettle, if_neg (Nat.not_le.mpr hlimit)]
          · rintro e u ⟨he, -⟩
            cases he
  · rintro e t ⟨he, -⟩
    cases he

theorem collects_collectSlot (b : Backfill) (around : Surroundings) (files : Files) (slot : Slot) :
    Collects b around files (b.collectSlot slot) [slot] := by
  intro made s hnodup hnew hs
  have hsome := hs.stored.isSome_get? (hnew slot (List.mem_singleton_self slot))
  refine Contract.call_bind hs.stored.reached ?_
  show (if (s.files.get? (envelopePath slot)).isSome then
      _ else _ : Program BackfillOp Bool).Contract
    _ _ _ _
  cases hfile : files.get? (envelopePath slot) with
  | some content =>
    have hnothing : absent files [slot] = [] := by simp [absent_singleton, hfile]
    rw [if_pos (by rw [hsome, hfile]; rfl), hnothing]
    refine Contract.call_bind hs.stored.reached (Contract.pure hs.stored.reached ⟨rfl, ?_⟩)
    rw [List.append_nil]
    exact hs.kept ⟨fun _ => rfl, rfl, rfl, rfl, rfl⟩
  | none =>
    have habsent : absent files [slot] = [slot] := by simp [absent_singleton, hfile]
    rw [if_neg (by rw [hsome, hfile]; simp), habsent]
    have hnone : Stored around.source files (made ++ [slot].take 0) s.files := by
      simpa using hs.stored
    refine Contract.call_bind hs.stored.reached ?_
    split
    · rename_i hcalls
      refine Contract.call_bind hs.stored.reached (Contract.pure hs.stored.reached
        ⟨0, Nat.zero_le _, hnone, .inl ⟨rfl, .inl ?_⟩⟩)
      rw [Nat.add_zero, ← hs.calls]
      exact hcalls
    · refine ((Backfill.contract_fetch slot RETRY_BACKOFF ⟨rfl, rfl⟩).mono (fun t ht => ?_)
        fun r t ht => ht).bind ?_ ?_
      · exact hs.stored.reached.kept (show Undisturbed s t from ht).kept
      · rintro fetched t ⟨hundisturbed, hanswer⟩
        have hkept : Kept s t := (show Undisturbed s t from hundisturbed).kept
        have ht := hs.kept hkept
        have hstored : Stored around.source files (made ++ [slot].take 0) t.files := by
          simpa using ht.stored
        cases fetched with
        | envelope envelope => exact contract_keep ht hanswer
        | transportError messageKo =>
          refine Contract.call_bind ht.stored.reached (Contract.pure ht.stored.reached
            ⟨0, Nat.zero_le _, hstored, ?_⟩)
          rcases hanswer with ⟨messageKo', hsource⟩ | hout
          · have hsettle : settle around.source made [slot] = (0, .transport) := by
              simp [settle, halt, hsource]
            rw [hsettle]
            exact .inr ⟨rfl, Outcome.noConfusion, rfl⟩
          · exact .inl ⟨rfl, .inr hout⟩
        | contractError messageKo =>
          refine Contract.call_bind ht.stored.reached (Contract.pure ht.stored.reached
            ⟨0, Nat.zero_le _, hstored, .inr ?_⟩)
          have hsource : around.source slot = .contractError messageKo := hanswer
          have hsettle : settle around.source made [slot] = (0, .refused) := by
            simp [settle, halt, hsource]
          rw [hsettle]
          exact ⟨rfl, Outcome.noConfusion, rfl⟩
      · rintro e t ⟨hundisturbed, hanswer⟩
        have hsource : around.source slot = .raised e := hanswer
        have hstored := hs.stored.congr (show Undisturbed s t from hundisturbed).kept.files
        simpa [Ended, settle, halt, hsource] using hstored

end Slot

/-- The slots of one day, or of those markets that are open. -/
def daySlots (day : Date) : List Market → List Slot
  | [] => []
  | market :: markets =>
    if market = .konex ∧ day < KONEX_OPENED then daySlots day markets
    else ⟨market, day⟩ :: daySlots day markets

def slotsOf : List Date → List Slot
  | [] => []
  | day :: days => (if 5 ≤ weekday day then [] else daySlots day MARKETS) ++ slotsOf days

section Days

variable (b : Backfill) (around : Surroundings) (files : Files)

theorem collects_collectMarkets (day : Date) (markets : List Market) :
    Collects b around files (b.collectMarkets day markets) (daySlots day markets) := by
  induction markets with
  | nil => exact .nil
  | cons market markets ih =>
    unfold Backfill.collectMarkets daySlots
    split
    · exact ih
    · exact (collects_collectSlot b around files ⟨market, day⟩).append ih

theorem collects_collectDays (days : List Date) :
    Collects b around files (b.collectDays days) (slotsOf days) := by
  induction days with
  | nil => exact .nil
  | cons day days ih =>
    unfold Backfill.collectDays slotsOf
    refine Collects.update ?_ (fun _ => rfl) (fun _ => rfl) (fun _ => rfl) fun _ => rfl
    split
    · exact ih
    · exact (collects_collectMarkets b around files day MARKETS).append
        (ih.update (fun _ => rfl) (fun _ => rfl) (fun _ => rfl) fun _ => rfl)

end Days

end Dayjaview.Historical
