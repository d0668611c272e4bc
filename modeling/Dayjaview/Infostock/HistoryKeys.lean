import Dayjaview.Core.Calendar
import Dayjaview.Core.Dict
import Dayjaview.Core.Json

/-!
# The keys of a theme's records

A record of a theme is stored under its id at the source, or under the digest of its contents. A key
that came before gets a number. Keys stay apart unless an id is itself the numbered key of another
one.
-/

namespace Dayjaview.Infostock

section Numbering

variable {β : Type*} [DecidableEq β] {count : β → Nat} {bs : List β} {b : β} {k : Nat}

/-- The names of a list, each with how often it came before. -/
def numbered (count : β → Nat) : List β → List (β × Nat)
  | [] => []
  | b :: bs => (b, count b) :: numbered (Function.update count b (count b + 1)) bs

/-- Each name comes with every number that it is reached by. -/
theorem mem_numbered : (b, k) ∈ numbered count bs ↔ count b ≤ k ∧ k < count b + bs.count b := by
  induction bs generalizing count with
  | nil =>
    rw [numbered, List.count_nil]
    exact ⟨fun h => absurd h List.not_mem_nil, fun h => by omega⟩
  | cons c bs ih =>
    rw [numbered, List.mem_cons, ih, Prod.mk.injEq]
    by_cases hsame : b = c
    · subst hsame
      rw [Function.update_self, List.count_cons_self]
      constructor
      · rintro (⟨-, rfl⟩ | ⟨hle, hlt⟩) <;> omega
      · rintro ⟨hle, hlt⟩
        rcases Nat.eq_or_lt_of_le hle with heq | hlt'
        · exact .inl ⟨rfl, heq.symm⟩
        · exact .inr ⟨hlt', by omega⟩
    · rw [Function.update_of_ne hsame, List.count_cons_of_ne (Ne.symm hsame)]
      exact ⟨fun h => h.resolve_left fun h => hsame h.1, .inr⟩

/-- No name comes twice with one number. -/
theorem nodup_numbered (count : β → Nat) (bs : List β) : (numbered count bs).Nodup := by
  induction bs generalizing count with
  | nil => exact List.nodup_nil
  | cons b bs ih =>
    refine List.nodup_cons.mpr ⟨fun hmem => ?_, ih _⟩
    have hle := (mem_numbered.mp hmem).1
    rw [Function.update_self] at hle
    omega

end Numbering

/-- What stands behind the last colon is told apart from what stands before it. -/
theorem append_colon_inj {a b c d : List Char} (hb : ':' ∉ b) (hd : ':' ∉ d)
    (h : a ++ ':' :: b = c ++ ':' :: d) : a = c ∧ b = d := by
  have hreverse := congrArg List.reverse h
  simp only [List.reverse_append, List.reverse_cons, List.append_assoc,
    List.singleton_append] at hreverse
  have htake := congrArg (List.takeWhile (· ≠ ':')) hreverse
  have hall : ∀ {l : List Char} (rest : List Char), ':' ∉ l →
      (l.reverse ++ ':' :: rest).takeWhile (· ≠ ':') = l.reverse := by
    intro l rest hl
    rw [List.takeWhile_append_of_pos fun x hx => ?_, List.takeWhile_cons_of_neg (by decide),
      List.append_nil]
    exact decide_eq_true fun hx' => hl (hx' ▸ List.mem_reverse.mp hx)
  rw [hall _ hb, hall _ hd] at htake
  obtain rfl := List.reverse_injective htake
  exact ⟨List.append_cancel_right h, rfl⟩

inductive LoadError
  | fixtureValidation (code path detail : String)
  | typeError
  deriving DecidableEq

/-- A record of a theme: its fields, and the contents and the day that are read from them. -/
structure HistoryItem where
  fields : List (String × Json)
  content : String
  eventDate : Option Date

def textOf (code path : String) : Json → Except LoadError String
  | .str s =>
    if strip s = "" then .error (.fixtureValidation code path "빈 문자열은 허용되지 않습니다.") else .ok
        (strip s)
  | _ => .error (.fixtureValidation code path "문자열이 필요합니다.")

/-- An id at the source, a text or a number. -/
def sourceIdentifier (path : String) : Json → Except LoadError String
  | .int n => textOf "MALFORMED_FIXTURE" path (.str (String.ofList (Json.intChars n)))
  | .str s => textOf "MALFORMED_FIXTURE" path (.str s)
  | _ => .error (.fixtureValidation "MALFORMED_FIXTURE" path "문자열 또는 정수 source ID가 필요합니다.")

inductive Loader
  | parseFixturePayload
  | loadExistingCollection

/-- The id of a record at a place. -/
def Loader.sourceId (path : String) (position : Nat) (item : HistoryItem) :
    Loader → Except LoadError (Option String)
  | parseFixturePayload =>
    match (Json.field? item.fields "B2Bseq").getD .null with
    | .null | .str "" => .ok none
    | .arr _ | .obj _ => .error .typeError
    | value => (sourceIdentifier s!"{path}.items[{position}].B2Bseq" value).map some
  | loadExistingCollection =>
    match (Json.field? item.fields "sourceId").getD .null with
    | .null => .ok none
    | value =>
      (textOf "COLLECTION_FIELD_INVALID" s!"{path}.history[{position}].sourceId" value).map some

/-- What the key of a record is made of. -/
structure HistorySeed extends HistoryItem where
  sourceId : Option String

/-- The records of a theme with their ids. -/
def Loader.seeds (loader : Loader) (path : String) (items : List HistoryItem) :
    Except LoadError (List HistorySeed) :=
  items.zipIdx.mapM fun e => (loader.sourceId path e.2 e.1).map (HistorySeed.mk e.1)

/-- The id of a record, unless it is empty. -/
def HistorySeed.knownId (seed : HistorySeed) : Option String := seed.sourceId.filter (· ≠ "")

def sourceIds (seeds : List HistorySeed) : List String := seeds.filterMap HistorySeed.knownId

/-- A key that came so many times before. -/
def occurrenceKey (base : String) (occurrence : Nat) : String :=
  if occurrence = 0 then base else base ++ ":occurrence:" ++ String.ofList (natText occurrence)

variable {id base base' : String} {k k' : Nat}

theorem source_ne_derived (id text : String) : "source:" ++ id ≠ "derived:" ++ text := by
  intro h
  have hchars := congrArg String.toList h
  rw [String.toList_append, String.toList_append] at hchars
  exact absurd (List.cons.inj hchars).1 (by decide)

theorem source_inj {id id' : String} : "source:" ++ id = "source:" ++ id' ↔ id = id' := by
  rw [← String.toList_inj, String.toList_append, String.toList_append, List.append_cancel_left_eq,
    String.toList_inj]

theorem colon_not_mem_natText (n : Nat) : ':' ∉ natText n := fun h =>
  absurd (isDigit_of_mem_natText h) (by decide)

/-- The characters of a numbered key. -/
theorem toList_occurrenceKey (hk : k ≠ 0) :
    (occurrenceKey base k).toList = (base.toList ++ ":occurrence".toList) ++ ':' :: natText k := by
  rw [occurrenceKey, if_neg hk, String.toList_append, String.toList_append, String.toList_ofList]
  simp

/-- A numbered key tells its id and its number. -/
theorem occurrenceKey_inj (hk : k ≠ 0) (hk' : k' ≠ 0)
    (h : occurrenceKey base k = occurrenceKey base' k') : base = base' ∧ k = k' := by
  have hchars := congrArg String.toList h
  rw [toList_occurrenceKey hk, toList_occurrenceKey hk'] at hchars
  obtain ⟨hbase, hnumber⟩ := append_colon_inj (colon_not_mem_natText k)
    (colon_not_mem_natText k') hchars
  exact ⟨String.toList_inj.mp (List.append_cancel_right hbase), natText_injective hnumber⟩

/-- A key of contents is no numbered key. -/
theorem derived_ne_occurrenceKey {digest : String} (hdigest : ':' ∉ digest.toList) (hk : k ≠ 0) :
    "derived:" ++ digest ≠ occurrenceKey base k := by
  intro h
  have hchars := congrArg String.toList h
  rw [toList_occurrenceKey hk, String.toList_append] at hchars
  have hsplit : "derived".toList ++ ':' :: digest.toList = (base.toList ++ ":occurrence".toList) ++
      ':' :: natText k :=
    hchars
  have hbase := (append_colon_inj hdigest (colon_not_mem_natText k) hsplit).1
  have hcolon : ':' ∈ "derived".toList := hbase ▸ List.mem_append_right _ (by decide)
  exact absurd hcolon (by decide)

variable [Sha256]

/-- The digest of the contents of a record. -/
def HistorySeed.fingerprint (seed : HistorySeed) : String :=
  jsonDigest (.obj [("content", .str seed.content),
    ("date", match seed.eventDate with | none => .null | some date => .str date.isoformat)])

/-- The key of a record before it is numbered. -/
def HistorySeed.baseKey (seed : HistorySeed) : String :=
  match seed.sourceId with
  | none => "derived:" ++ seed.fingerprint
  | some id => if id = "" then "derived:" ++ seed.fingerprint else "source:" ++ id

/-- The keys of some records behind others. -/
def sourceKeysFrom (seen : Dict String Nat) : List HistorySeed → List String
  | [] => []
  | seed :: seeds =>
    let occurrence := (seen.get? seed.baseKey).getD 0
    occurrenceKey seed.baseKey occurrence ::
    sourceKeysFrom (seen.set seed.baseKey (occurrence + 1)) seeds

/-- The keys of the records of a theme. -/
def sourceKeys (seeds : List HistorySeed) : List String := sourceKeysFrom .empty seeds

/-- The keys under which the records of a theme are loaded. -/
def Loader.sourceKeys (loader : Loader) (path : String) (items : List HistoryItem) :
    Except LoadError (List String) :=
  (loader.seeds path items).map Infostock.sourceKeys

variable {seeds : List HistorySeed}

theorem sourceKeysFrom_eq (seen : Dict String Nat) (seeds : List HistorySeed) :
    sourceKeysFrom seen seeds =
    (numbered (fun base => (seen.get? base).getD 0) (seeds.map HistorySeed.baseKey)).map fun e =>
      occurrenceKey e.1 e.2 := by
  induction seeds generalizing seen with
  | nil => rfl
  | cons seed seeds ih =>
    have hseen :
        (fun base => ((seen.set seed.baseKey ((seen.get? seed.baseKey).getD 0 + 1)).get? base).getD
          0) =
        Function.update (fun base => (seen.get? base).getD 0) seed.baseKey
        ((seen.get? seed.baseKey).getD 0 + 1) := by
      funext base
      rw [Dict.get?_set, Function.update_apply]
      split <;> rfl
    rw [sourceKeysFrom, ih, hseen]
    rfl

theorem baseKey_cases (seed : HistorySeed) :
    (∃ id, seed.knownId = some id ∧ seed.baseKey = "source:" ++ id) ∨
      (seed.knownId = none ∧ seed.baseKey = "derived:" ++ seed.fingerprint) := by
  unfold HistorySeed.baseKey HistorySeed.knownId
  cases seed.sourceId with
  | none => exact .inr ⟨rfl, rfl⟩
  | some id =>
    by_cases hempty : id = ""
    · exact .inr ⟨by simp [hempty], if_pos hempty⟩
    · exact .inl ⟨id, by simp [hempty], if_neg hempty⟩

/-- An id comes as often as its key. -/
theorem count_sourceKey (seeds : List HistorySeed) (id : String) :
    (seeds.map HistorySeed.baseKey).count ("source:" ++ id) = (sourceIds seeds).count id := by
  unfold sourceIds
  induction seeds with
  | nil => rfl
  | cons seed seeds ih =>
    rw [List.map_cons]
    rcases baseKey_cases seed with ⟨id', hid, hbase⟩ | ⟨hid, hbase⟩
    · rw [List.filterMap_cons_some hid, hbase, List.count_cons, List.count_cons, ih]
      simp only [beq_iff_eq, source_inj]
    · rw [List.filterMap_cons_none hid, hbase, List.count_cons_of_ne (source_ne_derived _ _).symm,
        ih]

/-- A key of an id is a numbered key only of an id. -/
theorem source_eq_occurrenceKey (hbase : ∃ seed : HistorySeed, seed.baseKey = base) (hk : k ≠ 0)
    (h : "source:" ++ id = occurrenceKey base k) :
    ∃ id', base = "source:" ++ id' ∧ id = occurrenceKey id' k := by
  obtain ⟨seed, rfl⟩ := hbase
  rw [occurrenceKey, if_neg hk] at h
  rcases baseKey_cases seed with ⟨id', -, hbase⟩ | ⟨-, hbase⟩
  · rw [hbase, String.append_assoc, String.append_assoc, source_inj] at h
    refine ⟨id', hbase, ?_⟩
    rw [h, occurrenceKey, if_neg hk, String.append_assoc]
  · rw [hbase, String.append_assoc, String.append_assoc] at h
    exact absurd h (source_ne_derived _ _)

/-- The keys are distinct exactly if no id is the numbered key of one that comes that often. -/
theorem nodup_sourceKeys_iff (hdigest : ∀ text, ':' ∉ (hexdigest text).toList)
    (seeds : List HistorySeed) : (sourceKeys seeds).Nodup ↔
      ∀ id k, k ≠ 0 → k < (sourceIds seeds).count id → occurrenceKey id k ∉ sourceIds seeds := by
  have hmem : ∀ {base k}, (base, k) ∈ numbered
      (fun base => ((Dict.empty : Dict String Nat).get? base).getD 0)
      (seeds.map HistorySeed.baseKey) ↔ k < (seeds.map HistorySeed.baseKey).count base := by
    intro base k
    rw [mem_numbered]
    exact ⟨fun h => by simpa using h.2, fun h => ⟨Nat.zero_le _, by simpa using h⟩⟩
  have hseed : ∀ {base k}, k < (seeds.map HistorySeed.baseKey).count base →
      ∃ seed ∈ seeds, seed.baseKey = base := fun h =>
    List.mem_map.mp (List.count_pos_iff.mp (Nat.zero_lt_of_lt h))
  rw [sourceKeys, sourceKeysFrom_eq, List.nodup_map_iff_inj_on (nodup_numbered _ _)]
  constructor
  · intro hinj id k hk hlt hid
    have hnumbered := hmem.mpr ((count_sourceKey seeds id).symm ▸ hlt)
    have hplain := hmem.mpr (show 0 < _ from
      (count_sourceKey seeds (occurrenceKey id k)).symm ▸ List.count_pos_iff.mpr hid)
    have hsame := hinj _ hplain _ hnumbered (by
      rw [occurrenceKey, if_pos rfl, occurrenceKey, if_neg hk, occurrenceKey, if_neg hk,
        String.append_assoc, String.append_assoc, String.append_assoc])
    exact hk (congrArg Prod.snd hsame).symm
  · intro hapart
    -- a key without a number is no numbered key of the theme
    have hplain : ∀ {base k base'}, k < (seeds.map HistorySeed.baseKey).count base →
        0 < (seeds.map HistorySeed.baseKey).count base' → k ≠ 0 → base' ≠ occurrenceKey base k := by
      intro base k base' hlt hpos hk heq
      obtain ⟨seed', hseed', rfl⟩ := hseed hpos
      rcases baseKey_cases seed' with ⟨id, hid, hbase⟩ | ⟨-, hbase⟩
      · rw [hbase] at heq
        obtain ⟨seed, -, hseed⟩ := hseed hlt
        obtain ⟨id', rfl, rfl⟩ := source_eq_occurrenceKey ⟨seed, hseed⟩ hk heq
        rw [count_sourceKey] at hlt
        exact hapart id' k hk hlt (List.mem_filterMap.mpr ⟨seed', hseed', hid⟩)
      · rw [hbase] at heq
        exact derived_ne_occurrenceKey (hdigest _) hk heq
    rintro ⟨base, k⟩ h ⟨base', k'⟩ h' heq
    rw [hmem] at h h'
    dsimp only at heq
    by_cases hk : k = 0
    · by_cases hk' : k' = 0
      · subst hk hk'
        exact Prod.ext heq rfl
      · subst hk
        exact absurd heq (hplain h' h hk')
    · by_cases hk' : k' = 0
      · subst hk'
        exact absurd heq.symm (hplain h h' hk)
      · obtain ⟨rfl, rfl⟩ := occurrenceKey_inj hk hk' heq
        rfl

/-- The keys under which the records of a theme are loaded are distinct exactly if no id is the
numbered key of one that comes that often. -/
theorem nodup_loadedKeys_iff (hdigest : ∀ text, ':' ∉ (hexdigest text).toList) (loader : Loader)
    (path : String)
    (items : List HistoryItem) {keys : List String} (hseeds : loader.seeds path items = .ok seeds)
    (hkeys : loader.sourceKeys path items = .ok keys) : keys.Nodup ↔
      ∀ id k, k ≠ 0 → k < (sourceIds seeds).count id → occurrenceKey id k ∉ sourceIds seeds := by
  rw [Loader.sourceKeys, hseeds] at hkeys
  cases hkeys
  exact nodup_sourceKeys_iff hdigest seeds

/-- Records of a fixture with some ids. -/
def itemsOf (ids : List String) : List HistoryItem :=
  ids.map fun id => ⟨[("B2Bseq", .str id)], "", none⟩

omit [Sha256]

/-- An id that occurs twice gets two keys. -/
theorem nodup_loadedKeys_two : letI : Sha256 := ⟨fun _ => "0"⟩
    ["source:7", "source:7:occurrence:1"].Nodup ↔
      ∀ id k, k ≠ 0 → k < ["7", "7"].count id → occurrenceKey id k ∉ ["7", "7"] :=
  let _ : Sha256 := ⟨fun _ => "0"⟩
  have hseeds : Loader.parseFixturePayload.seeds "theme" (itemsOf ["7", "7"]) =
      .ok ((itemsOf ["7", "7"]).map (HistorySeed.mk · (some "7"))) := rfl
  nodup_loadedKeys_iff (fun _ => show ':' ∉ "0".toList by decide) .parseFixturePayload "theme"
    (itemsOf ["7", "7"]) hseeds (by decide)

/-- A repeated id and an id that is its numbered key share a key. -/
theorem sourceKeys_collide : letI : Sha256 := ⟨fun _ => "0"⟩
    ∃ keys, Loader.parseFixturePayload.sourceKeys "theme" (itemsOf ["7", "7", "7:occurrence:1"]) =
    .ok keys ∧ ¬keys.Nodup :=
  ⟨["source:7", "source:7:occurrence:1", "source:7:occurrence:1"], by rfl, by decide⟩

end Dayjaview.Infostock
