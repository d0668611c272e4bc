import Dayjaview.Core.Base64
import Dayjaview.Core.JsonAscii
import Dayjaview.Identity.Repository

/-!
# Signed cursors

The place in a list of saved targets is handed out as a text: the place, the user and the filter as
JSON, and behind it a signature, both in letters. A cursor is taken back only with its signature and
for the same user and filter.
-/

namespace Dayjaview.Identity

/-- The keyed hash function, of a key and a message. -/
class HmacSha256 where
  digest : List UInt8 → List UInt8 → Vector UInt8 32

/-- What bytes say that are not all ASCII. -/
class WideText where
  read : List UInt8 → Except Error String

/-- The UTF-8 encoding of a text. -/
def encodeUtf8 (s : String) : List UInt8 := s.toList.flatMap String.utf8EncodeChar

/-- The text of the bytes of a JSON text. -/
def jsonText [WideText] (raw : List UInt8) : Except Error String :=
  if raw.all fun b => decide (0 < b.toNat ∧ b.toNat < 128) then
    .ok (String.ofList (raw.map fun b => Char.ofNat b.toNat))
  else WideText.read raw

/-- Two hexadecimal digits for each byte. -/
def hexText (bs : List UInt8) : String :=
  String.ofList (bs.flatMap fun b => [Nat.digitChar (b.toNat / 16), Nat.digitChar (b.toNat % 16)])

def base64url (value : List UInt8) : List Char := Base64.encode value

def base64urlDecode (value : List Char) : Except Error (List UInt8) :=
  Base64.decode (value ++ Base64.padding value.length)

/-- What stands in front of the first full stop and behind it. -/
def splitAtStop : List Char → Option (List Char × List Char)
  | [] => none
  | c :: cs =>
    if c = '.' then some ([], cs) else (splitAtStop cs).map fun (front, back) => (c :: front, back)

/-- The name of a kind of target. -/
def SavedType.value : SavedType → String
  | .theme => "THEME"
  | .stock => "STOCK"
  | .event => "EVENT"

/-- The kind of target with a name. -/
def SavedType.ofValue (value : String) : Option SavedType :=
  [SavedType.theme, .stock, .event].find? fun savedType => savedType.value = value

/-- A place in a list of saved targets. -/
structure CursorPosition where
  savedAt : Datetime
  targetId : String
  savedType : SavedType

/-- A cursor that is not taken. -/
def invalidCursor : Error := ⟨.invalidCursor, "관심 목록의 다음 페이지 정보를 확인할 수 없습니다."⟩

/-- What cursors are signed with. -/
structure SignedCursorCodec where
  secret : List UInt8
  valid : 32 ≤ secret.length

namespace SignedCursorCodec

variable [HmacSha256]

/-- The user of a cursor, which is not shown as it is. -/
def userScope (codec : SignedCursorCodec) (userId : String) : String :=
  hexText (HmacSha256.digest codec.secret (encodeUtf8 ("user-scope:" ++ userId))).toList

def payload (codec : SignedCursorCodec) (userId savedFilter : String) (position : CursorPosition) :
    List (String × Json) :=
  [("filter", .str savedFilter), ("savedAt", .str position.savedAt.isoformat),
    ("savedType", .str position.savedType.value), ("targetId", .str position.targetId),
    ("userScope", .str (codec.userScope userId)), ("version", .int 1)]

def encode (codec : SignedCursorCodec) (userId savedFilter : String) (position : CursorPosition) :
    String :=
  let raw := encodeUtf8 (Json.obj (codec.payload userId savedFilter position)).asciiCanonical
  let signature := HmacSha256.digest codec.secret raw
  String.ofList (base64url raw ++ '.' :: base64url signature.toList)

def isOne : Json → Bool
  | .int n => n = 1
  | .bool b => b
  | .float x => x.chars = "1.0".toList
  | _ => false

variable [JsonRuntime] [WideText]

/-- The place that a payload says. -/
def readPayload (codec : SignedCursorCodec) (payload : Json) (userId savedFilter : String) :
    Except Error CursorPosition :=
  match payload with
  | .obj fields => do
    if !(Json.field? fields "version").any isOne then throw invalidCursor
    if Json.field? fields "userScope" ≠ some (.str (codec.userScope userId)) then
        throw invalidCursor
    if Json.field? fields "filter" ≠ some (.str savedFilter) then throw invalidCursor
    match Json.field? fields "savedAt", Json.field? fields "targetId",
      Json.field? fields "savedType" with
    | some (.str savedAt), some (.str targetId), some savedType =>
      match Datetime.fromisoformat savedAt, savedType with
      | some savedAt, .str savedType =>
        match SavedType.ofValue savedType with
        | some savedType => return ⟨savedAt, targetId, savedType⟩
        | none => throw ⟨.valueError, "'" ++ savedType ++ "' is not a valid SavedType"⟩
      | some _, _ => throw ⟨.valueError, "is not a valid SavedType"⟩
      | none, _ => throw invalidCursor
    | _, _, _ => throw invalidCursor
  | _ => throw invalidCursor

/-- Read a cursor, with the errors of every step. -/
def readCursor (codec : SignedCursorCodec) (cursor userId savedFilter : String) :
    Except Error CursorPosition :=
  match splitAtStop cursor.toList with
  | none => throw ⟨.valueError, "not enough values to unpack (expected 2, got 1)"⟩
  | some (encodedPayload, encodedSignature) => do
    let raw ← base64urlDecode encodedPayload
    let suppliedSignature ← base64urlDecode encodedSignature
    if suppliedSignature ≠ (HmacSha256.digest codec.secret raw).toList then throw invalidCursor
    let text ← jsonText raw
    let payload ← loads text
    codec.readPayload payload userId savedFilter

def decode (codec : SignedCursorCodec) (cursor userId savedFilter : String) :
    Except Error CursorPosition :=
  match codec.readCursor cursor userId savedFilter with
  | .ok position => .ok position
  | .error e =>
    if e.kind ∈ [.keyError, .typeError, .valueError, .unicodeDecodeError, .jsonDecodeError] then
        .error invalidCursor
    else .error e

end SignedCursorCodec

theorem SavedType.ofValue_value (savedType : SavedType) :
    SavedType.ofValue savedType.value = some savedType := by
  cases savedType <;> decide

theorem utf8EncodeChar_of_lt {c : Char} (h : c.toNat < 128) :
    String.utf8EncodeChar c = [UInt8.ofNat c.toNat] := by
  have hle : c.val.toNat ≤ 0x7f := Nat.le_of_lt_succ h
  rw [String.utf8EncodeChar, if_pos hle]
  rfl

variable {cs : List Char}

theorem encodeUtf8_ascii (h : ∀ c ∈ cs, c.toNat < 128) :
    encodeUtf8 (String.ofList cs) = cs.map fun c => UInt8.ofNat c.toNat := by
  rw [encodeUtf8, String.toList_ofList]
  induction cs with
  | nil => rfl
  | cons c cs ih =>
    rw [List.flatMap_cons, utf8EncodeChar_of_lt (h c List.mem_cons_self), List.map_cons,
      ih fun d hd => h d (List.mem_cons_of_mem _ hd), List.singleton_append]

theorem jsonText_encodeUtf8 [WideText] (h : ∀ c ∈ cs, 0 < c.toNat ∧ c.toNat < 128) :
    jsonText (encodeUtf8 (String.ofList cs)) = .ok (String.ofList cs) := by
  have hbyte : ∀ c ∈ cs, (UInt8.ofNat c.toNat).toNat = c.toNat := by
    intro c hc
    have hlt := (h c hc).2
    rw [UInt8.toNat_ofNat']
    omega
  rw [encodeUtf8_ascii fun c hc => (h c hc).2, jsonText, if_pos]
  · rw [List.map_map]
    congr 2
    refine (List.map_congr_left fun c hc => ?_).trans (List.map_id cs)
    show Char.ofNat (UInt8.ofNat c.toNat).toNat = c
    rw [hbyte c hc, Char.ofNat_toNat]
  · rw [List.all_eq_true]
    intro b hb
    obtain ⟨c, hc, rfl⟩ := List.mem_map.mp hb
    rw [hbyte c hc]
    exact decide_eq_true (h c hc)

theorem splitAtStop_append {ds : List Char} (h : ∀ c ∈ cs, c ≠ '.') :
    splitAtStop (cs ++ '.' :: ds) = some (cs, ds) := by
  induction cs with
  | nil => rfl
  | cons c cs ih =>
    rw [List.cons_append, splitAtStop, if_neg (h c List.mem_cons_self),
      ih fun d hd => h d (List.mem_cons_of_mem _ hd)]
    rfl

theorem splitAtStop_base64url (value : List UInt8) (ds : List Char) :
    splitAtStop (base64url value ++ '.' :: ds) = some (base64url value, ds) :=
  splitAtStop_append fun c hc => (Base64.encode_plain value c hc).2

theorem base64urlDecode_base64url (value : List UInt8) :
    base64urlDecode (base64url value) = .ok value :=
  Base64.decode_encode value

theorem length_padded (width n : Nat) : (padded width n).length = width := by
  induction width with
  | zero => rfl
  | succ width ih => rw [padded, List.length_cons, ih]

theorem length_isoformat_le (t : Datetime) : t.isoformat.length ≤ 42 := by
  have hfraction : ∀ micros, (Datetime.fractionChars micros).length ≤ 7 := by
    intro micros
    unfold Datetime.fractionChars
    split
    · exact Nat.zero_le _
    · rw [List.length_cons, length_padded]
  have hseconds : ∀ micros, (Datetime.offsetSecondChars micros).length ≤ 10 := by
    intro micros
    unfold Datetime.offsetSecondChars
    split
    · exact Nat.zero_le _
    · have hlength := hfraction (micros % 1000000)
      rw [List.length_append, List.length_cons, length_padded]
      omega
  have hmicros := hfraction t.microsecond
  have hoffset := hseconds t.utcoffset.natAbs
  rw [Datetime.isoformat, String.length_ofList, Datetime.isoChars, Datetime.offsetChars,
    Date.isoChars]
  simp only [List.length_append, List.length_cons, length_padded]
  omega

namespace SignedCursorCodec

variable [HmacSha256] (codec : SignedCursorCodec) (userId savedFilter : String)
  (position : CursorPosition)

theorem flat_payload : ∀ field ∈ codec.payload userId savedFilter position, field.2.Flat := by
  simp only [payload, List.forall_mem_cons]
  refine ⟨trivial, trivial, trivial, trivial, trivial, ?_, fun field hfield => by cases hfield⟩
  show (natText 1).length ≤ 4300
  decide +kernel

theorem nodup_payload : ((codec.payload userId savedFilter position).map Prod.fst).Nodup := by
  show ["filter", "savedAt", "savedType", "targetId", "userScope", "version"].Nodup
  decide

theorem field?_payload {key : String} {v : Json}
    (h : Json.field? (codec.payload userId savedFilter position) key = some v)
    (hflat : v.Flat) :
    Json.field? (Json.sortedFields (codec.payload userId savedFilter position)) key = some v := by
  rw [Json.field?_sortedFields (codec.nodup_payload userId savedFilter position), h,
    Option.map_some, hflat.sortKeys_eq]

theorem readPayload_payload :
    codec.readPayload (.obj (Json.sortedFields (codec.payload userId savedFilter position))) userId
      savedFilter = .ok position := by
  have hversion :
      Json.field? (Json.sortedFields (codec.payload userId savedFilter position)) "version" =
      some (.int 1) := codec.field?_payload userId savedFilter position rfl
        (codec.flat_payload userId savedFilter position ("version", .int 1) (by simp [payload]))
  have htext : ∀ key text, Json.field? (codec.payload userId savedFilter position) key =
      some (.str text) →
      Json.field? (Json.sortedFields (codec.payload userId savedFilter position)) key =
      some (.str text) :=
    fun key text h => codec.field?_payload userId savedFilter position h trivial
  have hscope := htext "userScope" (codec.userScope userId) rfl
  have hfilter := htext "filter" savedFilter rfl
  have hsavedAt := htext "savedAt" position.savedAt.isoformat rfl
  have htarget := htext "targetId" position.targetId rfl
  have htype := htext "savedType" position.savedType.value rfl
  simp [readPayload, hversion, hscope, hfilter, hsavedAt, htarget, htype, isOne,
    Datetime.fromisoformat_isoformat, SavedType.ofValue_value]
  rfl

theorem decode_encode [JsonRuntime] [WideText] (hlimit : 0 < JsonRuntime.recursionLimit) :
    codec.decode (codec.encode userId savedFilter position) userId savedFilter = .ok position := by
  have hflat := codec.flat_payload userId savedFilter position
  have hread : codec.readCursor (codec.encode userId savedFilter position) userId savedFilter =
      .ok position := by
    have hprinted := Json.asciiCanonical_printed hflat
    have htext := jsonText_encodeUtf8 fun c hc =>
      ⟨lt_of_lt_of_le (by decide) (hprinted c hc).1, (hprinted c hc).2.trans (by decide)⟩
    rw [String.ofList_toList] at htext
    have hloads :=
      loads_asciiCanonical hflat (codec.nodup_payload userId savedFilter position) hlimit
    rw [readCursor, encode, String.toList_ofList, splitAtStop_base64url]
    simp only [base64urlDecode_base64url, bind, Except.bind, ne_eq, not_true, if_false,
      htext, hloads, readPayload_payload]
  rw [decode, hread]

theorem sortedFields_payload : Json.sortedFields (codec.payload userId savedFilter position) =
    codec.payload userId savedFilter position := by
  rw [Json.sortedFields, Json.sortFields_eq_self (codec.flat_payload userId savedFilter position)]
  have hkeys : ["filter", "savedAt", "savedType", "targetId", "userScope", "version"].Pairwise
      (· ≤ ·) := by
    decide +kernel
  exact List.Pairwise.insertionSort_eq (List.pairwise_map.mp hkeys)

theorem length_userScope : (codec.userScope userId).length = 64 := by
  rw [userScope, hexText, String.length_ofList, List.length_flatMap]
  simp

theorem length_payload_le (hfilter : savedFilter.length ≤ 5)
    (htarget : position.targetId.length ≤ 128) :
    (Json.obj (codec.payload userId savedFilter position)).asciiCanonical.length ≤ 3020 := by
  have hfilter' := Json.length_ascii_quoted_le savedFilter
  have hsavedAt := Json.length_ascii_quoted_le position.savedAt.isoformat
  have htype := Json.length_ascii_quoted_le position.savedType.value
  have htarget' := Json.length_ascii_quoted_le position.targetId
  have hscope := Json.length_ascii_quoted_le (codec.userScope userId)
  have hiso := length_isoformat_le position.savedAt
  have hkind : position.savedType.value.length = 5 := by cases position.savedType <;> rfl
  have huser := codec.length_userScope userId
  rw [← String.length_toList, Json.toList_asciiCanonical, sortedFields_payload, payload]
  simp only [Json.chars, Json.fieldsChars, Json.ascii_append,
    Json.ascii_cons (show '{'.toNat < 127 by decide),
    Json.ascii_cons (show ':'.toNat < 127 by decide),
    Json.ascii_cons (show ','.toNat < 127 by decide), List.length_append, List.length_cons]
  have hkeys : (Json.ascii (Json.quoted "filter")).length = 8 ∧
      (Json.ascii (Json.quoted "savedAt")).length = 9 ∧
      (Json.ascii (Json.quoted "savedType")).length = 11 ∧
      (Json.ascii (Json.quoted "targetId")).length = 10 ∧
      (Json.ascii (Json.quoted "userScope")).length = 11 ∧
      (Json.ascii (Json.quoted "version")).length = 9 := by
    decide +kernel
  have hrest : (Json.ascii (Json.intChars 1)).length = 1 ∧ (Json.ascii ['}']).length = 1 := by
    decide +kernel
  omega

theorem length_encode_le (hfilter : savedFilter.length ≤ 5)
    (htarget : position.targetId.length ≤ 128) :
    (codec.encode userId savedFilter position).length ≤ 4096 := by
  have hpayload := codec.length_payload_le userId savedFilter position hfilter htarget
  have hprinted := Json.asciiCanonical_printed (codec.flat_payload userId savedFilter position)
  have hraw :
      (encodeUtf8 (Json.obj (codec.payload userId savedFilter position)).asciiCanonical).length =
      (Json.obj (codec.payload userId savedFilter position)).asciiCanonical.length := by
    have hascii := encodeUtf8_ascii fun c hc => (hprinted c hc).2.trans (by decide)
    rw [String.ofList_toList] at hascii
    rw [hascii, List.length_map, String.length_toList]
  rw [encode, String.length_ofList, List.length_append, List.length_cons, base64url, base64url,
    Base64.length_encode, Base64.length_encode, hraw, Vector.length_toList]
  omega

end SignedCursorCodec

end Dayjaview.Identity
