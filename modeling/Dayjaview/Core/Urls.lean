import Dayjaview.Core.CodePoints
import Dayjaview.Core.Ranking
import Mathlib.Data.List.SplitBy
import Mathlib.Data.List.TakeWhile

/-!
# Addresses

An address is split into its parts, its query into names and values, and both are put
together again. What cannot be split raises a value error; one text stands for those
of the library.
-/

namespace Dayjaview

section

/-- An address that cannot be split. -/
def invalidUrl : Error := ⟨.valueError, "Invalid URL"⟩

/-- Raise a value error unless the condition holds. -/
def requireUrl (p : Prop) [Decidable p] : Except Error Unit :=
  if p then .ok () else .error invalidUrl

/-- The text in front of the first separator and the text behind it. -/
def cutAt (separator : CodePoint) (cs : List CodePoint) : List CodePoint × List CodePoint :=
  (cs.takeWhile (· ≠ separator), (cs.dropWhile (· ≠ separator)).drop 1)

/-- The text behind the last separator, all of it if there is none. -/
def behindLast (separator : CodePoint) (cs : List CodePoint) : List CodePoint :=
  (cs.reverse.takeWhile (· ≠ separator)).reverse

def isOctet (cs : List CodePoint) : Bool :=
  !cs.isEmpty && cs.all (·.asciiIs Char.isDigit) && decide (cs.length ≤ 3) &&
    (decide (cs.length = 1) || cs.head? != some '0') &&
    decide (cs.foldl (fun n c => 10 * n + (c.toNat - 48)) 0 ≤ 255)

/-- An address of four numbers. -/
def isIPv4 (cs : List CodePoint) : Bool :=
  let parts := cs.splitOn (.char '.')
  parts.length == 4 && parts.all isOctet

def isHexDigit (c : Char) : Bool := c.isDigit || ('a' ≤ c && c ≤ 'f') || ('A' ≤ c && c ≤ 'F')

/-- A number between two colons. -/
def isHextet (cs : List CodePoint) : Bool :=
  !cs.isEmpty && cs.all (·.asciiIs isHexDigit) && decide (cs.length ≤ 4)

/-- The parts of an address of eight numbers, the last two of which may be written as four. -/
def hextets (cs : List CodePoint) : Option (List (List CodePoint)) :=
  let parts := cs.splitOn (.char ':')
  if parts.length < 3 then none
  else
    match parts.getLast? with
    | none => none
    | some last =>
      if last.contains '.' then
        if isIPv4 last then some (parts.dropLast ++ [codePoints "0", codePoints "0"]) else none
      else some parts

/-- The parts are eight numbers, or fewer with a gap. -/
def fillEight (parts : List (List CodePoint)) : Bool :=
  let inner := (parts.drop 1).dropLast
  let gap := inner.findIdx List.isEmpty + 1
  let front := parts.take gap
  let back := parts.drop (gap + 1)
  match inner.countP List.isEmpty with
  | 0 => parts.length == 8 && parts.all isHextet
  | 1 =>
    let high := if front.head? = some [] then front.drop 1 else front
    let low := if back.getLast? = some [] then back.dropLast else back
    (front.head? != some [] || high.isEmpty) && (back.getLast? != some [] || low.isEmpty) &&
      decide (high.length + low.length ≤ 7) && high.all isHextet && low.all isHextet
  | _ => false

/-- An address of eight numbers, perhaps with a zone. -/
def isIPv6 (cs : List CodePoint) : Bool :=
  let (address, zone) := cutAt '%' cs
  !cs.contains '/' && (!cs.contains '%' || (!zone.isEmpty && !zone.contains '%')) &&
    match hextets address with
    | none => false
    | some parts => decide (parts.length ≤ 9) && fillEight parts

/-- A host that stands between brackets. -/
def isBracketedHost (host : List CodePoint) : Bool :=
  match host with
  | .char 'v' :: rest =>
    let (version, address) := cutAt '.' rest
    rest.contains '.' && !version.isEmpty && version.all (·.asciiIs isHexDigit) && !address.isEmpty
  | _ => isIPv6 host

/-- The brackets of an authority surround its host. -/
def checkBrackets (netloc : List CodePoint) : Except Error Unit := do
  requireUrl (netloc.contains '[' = netloc.contains ']')
  if netloc.contains '[' then
    let place := behindLast '@' netloc
    if place.contains '[' then
      let (before, bracketed) := cutAt '[' place
      let (host, port) := cutAt ']' bracketed
      requireUrl (before = [] ∧ (port = [] ∨ port.head? = some ':'))
      requireUrl (isBracketedHost host)
    else
      requireUrl (isBracketedHost (cutAt ':' place).1)

variable [TextTables]

/-- No character of an authority stands for a separator. -/
def checkNetloc (netloc : List CodePoint) : Except Error Unit :=
  let marks : List CodePoint := ['@', ':', '#', '?']
  let plain := netloc.filter fun c => !marks.contains c
  if netloc.all CodePoint.isAscii ∨ TextTables.nfkc plain = plain then .ok ()
  else requireUrl ((TextTables.nfkc plain).all fun c =>
    !(['/', '?', '#', '@', ':'] : List CodePoint).contains c)

section

omit [TextTables]

/-- The characters of a scheme. -/
def isSchemeChar (c : Char) : Bool := c.isAlphanum || c == '+' || c == '-' || c == '.'

/-- The scheme of an address and what follows it. -/
def splitScheme (url : List CodePoint) : List CodePoint × List CodePoint :=
  let (scheme, rest) := cutAt ':' url
  if url.contains ':' ∧ (scheme.head?.any (·.asciiIs Char.isAlpha)) ∧
      scheme.all (·.asciiIs isSchemeChar) then
    (scheme.map CodePoint.lowerAscii, rest)
  else ([], url)

/-- The authority of an address and what follows it. -/
def splitNetloc (url : List CodePoint) : List CodePoint × List CodePoint :=
  if url.take 2 = codePoints "//" then
    (url.drop 2).span fun c => !(['/', '?', '#'] : List CodePoint).contains c
  else ([], url)

end

/-- The parts of an address in front of its fragment. -/
structure SplitResult where
  scheme : List CodePoint
  netloc : List CodePoint
  path : List CodePoint
  query : List CodePoint

def urlsplit (url : List CodePoint) : Except Error SplitResult := do
  let url := (url.dropWhile fun c => decide (c.toNat ≤ 0x20)).filter fun c =>
    !(['\t', '\r', '\n'] : List CodePoint).contains c
  let (scheme, url) := splitScheme url
  let (netloc, url) := splitNetloc url
  checkBrackets netloc
  let (url, _) := cutAt '#' url
  let (path, query) := cutAt '?' url
  checkNetloc netloc
  return ⟨scheme, netloc, path, query⟩

namespace SplitResult

omit [TextTables] in
/-- The host and the port as they are written. -/
def hostinfo (r : SplitResult) : List CodePoint × List CodePoint :=
  let place := behindLast '@' r.netloc
  if place.contains '[' then
    let (host, rest) := cutAt ']' (cutAt '[' place).2
    (host, (cutAt ':' rest).2)
  else cutAt ':' place

/-- The host in small letters, except for its zone. -/
def hostname (r : SplitResult) : List CodePoint :=
  let host := r.hostinfo.1
  let (name, zone) := cutAt '%' host
  TextTables.lower name ++ if host.contains '%' then (.char '%') :: zone else []

omit [TextTables] in
/-- The number of the port, if one is given. -/
def port (r : SplitResult) : Except Error (Option Nat) := do
  let digits := r.hostinfo.2
  if digits = [] then return none
  requireUrl (digits.all (·.asciiIs Char.isDigit) ∧ digits.length ≤ 4300)
  let number : Nat := digits.foldl (fun n c => 10 * n + (c.toNat - 48)) 0
  requireUrl (number ≤ 65535)
  return some number

end SplitResult

omit [TextTables] in
/-- Put an address without a fragment together. -/
def urlunsplit (r : SplitResult) : List CodePoint :=
  let usesNetloc := r.path = [] ∨ r.path.head? = some '/'
  let path :=
    if r.netloc ≠ [] then
      codePoints "//" ++ r.netloc ++
        if r.path ≠ [] ∧ r.path.head? ≠ some '/' then (.char '/') :: r.path else r.path
    else if r.path.take 2 = codePoints "//" ∨ usesNetloc then codePoints "//" ++ r.path
    else r.path
  let url := if r.scheme ≠ [] then r.scheme ++ (.char ':') :: path else path
  if r.query ≠ [] then url ++ (.char '?') :: r.query else url

omit [TextTables]

/-- The value of a hexadecimal digit. -/
def hexValue : CodePoint → Option Nat
  | .char c =>
    if c.isDigit then some (c.toNat - 48)
    else if 'a' ≤ c ∧ c ≤ 'f' then some (c.toNat - 87)
    else if 'A' ≤ c ∧ c ≤ 'F' then some (c.toNat - 55)
    else none
  | .surrogate _ => none

/-- The bytes of a text within ASCII, with its escapes resolved. -/
def unquoteToBytes : List CodePoint → List Nat
  | [] => []
  | .char '%' :: a :: b :: cs =>
    match hexValue a, hexValue b with
    | some x, some y => (16 * x + y) :: unquoteToBytes cs
    | _, _ => 0x25 :: unquoteToBytes (a :: b :: cs)
  | c :: cs => c.toNat :: unquoteToBytes cs

/-- The text with the escapes within its runs of ASCII resolved. -/
def unquote (cs : List CodePoint) : List CodePoint :=
  (cs.splitBy fun a b => a.isAscii == b.isAscii).flatMap fun run =>
    if run.all CodePoint.isAscii then (decodeReplacing (unquoteToBytes run)).map .char else run

/-- The value of a field of a form. -/
def unquotePlus (cs : List CodePoint) : List CodePoint :=
  unquote (cs.map fun c => if c = .char '+' then .char ' ' else c)

/-- The names and values of a query, also where the value is missing. -/
def parseQsl (query : List CodePoint) : List (List CodePoint × List CodePoint) :=
  ((query.splitOn (.char '&')).filter (· ≠ [])).map fun field =>
    let (name, value) := cutAt '=' field
    (unquotePlus name, unquotePlus value)

/-- A byte that needs no escape. -/
def isUnreserved (c : Char) : Bool :=
  c.isAlphanum || c == '_' || c == '.' || c == '-' || c == '~'

/-- A byte of a field of a form. -/
def quoteByte (b : Nat) : List Char :=
  let c := Char.ofNat b
  if b < 128 ∧ isUnreserved c then [c]
  else if c = ' ' then ['+']
  else ['%', (Nat.digitChar (b / 16)).toUpper, (Nat.digitChar (b % 16)).toUpper]

def quotePlus (cs : List CodePoint) : Except Error (List CodePoint) := do
  let s ← encodable cs
  return ((utf8Bytes s).flatMap quoteByte).map .char

/-- The query of some names and values. -/
def urlencode (fields : List (List CodePoint × List CodePoint)) : Except Error (List CodePoint) :=
  do
  let quoted ← fields.mapM fun (name, value) => do
    return (← quotePlus name) ++ (.char '=') :: (← quotePlus value)
  return List.intercalate [.char '&'] quoted

end

/-- What is being read of a character only goes on with a byte above ASCII. -/
def PartialChar.AboveAscii (p : Option PartialChar) : Prop := ∀ q ∈ p, 0x80 ≤ q.low

theorem aboveAscii_startChar (b : Nat) : PartialChar.AboveAscii (startChar b).2 := by
  intro q hq
  unfold startChar at hq
  split_ifs at hq <;>
    simp only [Option.mem_def, reduceCtorEq, Option.some.injEq] at hq <;>
    subst hq <;>
    simp

theorem aboveAscii_nextByte (b : Nat) (p : Option PartialChar) :
    PartialChar.AboveAscii (nextByte b p).2 := by
  cases p with
  | none => exact aboveAscii_startChar b
  | some p =>
    unfold nextByte
    dsimp only
    split
    · split
      · nofun
      · rintro q hq
        obtain rfl := Option.some.inj hq
        exact le_rfl
    · exact aboveAscii_startChar b

variable {b : Nat} {c : CodePoint} {cs : List CodePoint}

theorem startChar_ascii (h : b < 0x80) : startChar b = ([Char.ofNat b], none) := if_pos h

theorem decodeFrom_append_ascii (hb : b < 0x80) (as bs : List Nat) {p : Option PartialChar}
    (hp : PartialChar.AboveAscii p) :
    decodeFrom p (as ++ b :: bs) = decodeFrom p as ++ Char.ofNat b :: decodeFrom none bs := by
  induction as generalizing p with
  | nil =>
    rw [List.nil_append, decodeFrom]
    cases p with
    | none =>
      rw [nextByte, startChar_ascii hb]
      rfl
    | some p =>
      have hlow := hp p rfl
      rw [nextByte, if_neg (by omega), startChar_ascii hb]
      rfl
  | cons a as ih =>
    rw [List.cons_append, decodeFrom, decodeFrom]
    dsimp only
    rw [ih (aboveAscii_nextByte a p), List.append_assoc]

theorem decodeReplacing_append_ascii (hb : b < 0x80) (as bs : List Nat) :
    decodeReplacing (as ++ b :: bs) = decodeReplacing as ++ Char.ofNat b :: decodeReplacing bs :=
  decodeFrom_append_ascii hb as bs nofun

theorem length_nextByte_le (b : Nat) (p : Option PartialChar) :
    (nextByte b p).1.length + (nextByte b p).2.toList.length ≤ 1 + p.toList.length := by
  have hstart : (startChar b).1.length + (startChar b).2.toList.length = 1 := by
    unfold startChar
    split_ifs <;> rfl
  cases p with
  | none => exact hstart.le
  | some p =>
    unfold nextByte
    dsimp only
    split
    · split <;> simp
    · simp only [List.length_cons, Option.toList_some, List.length_nil]
      omega

theorem length_decodeFrom_le (p : Option PartialChar) (bs : List Nat) :
    (decodeFrom p bs).length ≤ p.toList.length + bs.length := by
  induction bs generalizing p with
  | nil =>
    cases p with
    | none => exact Nat.zero_le _
    | some p => exact le_rfl
  | cons b bs ih =>
    have hbyte := length_nextByte_le b p
    have hrest := ih (nextByte b p).2
    rw [decodeFrom, List.length_append, List.length_cons]
    omega

/-- The code point belongs to no escape. -/
def Separates (c : CodePoint) : Prop := c.toNat < 0x80 ∧ c ≠ .char '%' ∧ hexValue c = none

theorem Separates.isAscii (h : Separates c) : c.isAscii = true := decide_eq_true h.1

theorem char_ofNat_toNat (h : c.isAscii = true) : CodePoint.char (Char.ofNat c.toNat) = c := by
  have hlt : c.toNat < 128 := of_decide_eq_true h
  cases c with
  | char c => exact congrArg CodePoint.char (Char.ofNat_toNat c)
  | surrogate n =>
    simp only [CodePoint.toNat] at hlt
    omega

theorem decodeReplacing_toNat (h : ∀ c ∈ cs, c.isAscii = true) :
    (decodeReplacing (cs.map CodePoint.toNat)).map CodePoint.char = cs := by
  induction cs with
  | nil => rfl
  | cons c cs ih =>
    have hc := h c List.mem_cons_self
    have hbyte : decodeReplacing (c.toNat :: cs.map CodePoint.toNat) =
        Char.ofNat c.toNat :: decodeReplacing (cs.map CodePoint.toNat) :=
      decodeReplacing_append_ascii (of_decide_eq_true hc) [] _
    rw [List.map_cons, hbyte, List.map_cons, char_ofNat_toNat hc, ih fun d hd =>
      h d (List.mem_cons_of_mem _ hd)]

theorem unquoteToBytes_cons (h : c ≠ .char '%') (cs : List CodePoint) :
    unquoteToBytes (c :: cs) = c.toNat :: unquoteToBytes cs := by
  rw [unquoteToBytes]
  rintro a b ds rfl
  exact absurd rfl h

theorem unquoteToBytes_escape {a b : CodePoint} {x y : Nat} (ha : hexValue a = some x)
    (hb : hexValue b = some y) (cs : List CodePoint) :
    unquoteToBytes (.char '%' :: a :: b :: cs) = (16 * x + y) :: unquoteToBytes cs := by
  rw [unquoteToBytes, ha, hb]

theorem unquoteToBytes_percent {a b : CodePoint}
    (h : ∀ x y, hexValue a = some x → hexValue b = some y → False) (cs : List CodePoint) :
    unquoteToBytes (.char '%' :: a :: b :: cs) = 0x25 :: unquoteToBytes (a :: b :: cs) := by
  rw [unquoteToBytes]
  split
  · next hx hy => exact (h _ _ hx hy).elim
  · rfl

theorem unquoteToBytes_append (h : Separates c) (cs ds : List CodePoint) :
    unquoteToBytes (cs ++ c :: ds) = unquoteToBytes cs ++ c.toNat :: unquoteToBytes ds := by
  induction cs using unquoteToBytes.induct with
  | case1 => exact unquoteToBytes_cons h.2.1 ds
  | case2 a b cs x y hb ha ih =>
    show unquoteToBytes (.char '%' :: a :: b :: (cs ++ c :: ds)) = _
    rw [unquoteToBytes_escape ha hb, unquoteToBytes_escape ha hb, ih, List.cons_append]
  | case3 a b cs hno ih =>
    show unquoteToBytes (.char '%' :: a :: b :: (cs ++ c :: ds)) = _
    rw [unquoteToBytes_percent hno, unquoteToBytes_percent hno, List.cons_append, ← ih]
    rfl
  | case4 d cs hno ih =>
    rw [unquoteToBytes.eq_3 _ _ hno, List.cons_append, List.cons_append, ← ih]
    by_cases hd : d = .char '%'
    · -- too few code points for an escape stand between the sign and the other one
      subst hd
      have hnone := h.2.2
      rcases cs with _ | ⟨a, _ | ⟨b, cs⟩⟩
      · rcases ds with _ | ⟨b, ds⟩
        · rfl
        · exact unquoteToBytes_percent (fun x y hx _ => by rw [hnone] at hx; cases hx) ds
      · exact unquoteToBytes_percent (fun x y _ hy => by rw [hnone] at hy; cases hy) ds
      · exact (hno a b cs rfl rfl).elim
    · exact unquoteToBytes_cons hd _

theorem unquoteToBytes_length (cs : List CodePoint) :
    unquoteToBytes cs = cs.map CodePoint.toNat ∨ (unquoteToBytes cs).length < cs.length := by
  induction cs using unquoteToBytes.induct with
  | case1 => exact .inl rfl
  | case2 a b cs x y hb ha ih =>
    have hle : (unquoteToBytes cs).length ≤ cs.length := by
      rcases ih with heq | hlt
      · rw [heq, List.length_map]
      · exact hlt.le
    rw [unquoteToBytes_escape ha hb]
    simp only [List.length_cons]
    omega
  | case3 a b cs hno ih =>
    rw [unquoteToBytes_percent hno]
    exact ih.imp (fun heq => congrArg (0x25 :: ·) heq) Nat.succ_lt_succ
  | case4 d cs hno ih =>
    rw [unquoteToBytes.eq_3 _ _ hno]
    exact ih.imp (fun heq => congrArg (d.toNat :: ·) heq) Nat.succ_lt_succ

/-- The text of a run within ASCII with its escapes resolved. -/
def resolveRun (run : List CodePoint) : List CodePoint :=
  (decodeReplacing (unquoteToBytes run)).map .char

theorem resolveRun_append (h : Separates c) (cs ds : List CodePoint) :
    resolveRun (cs ++ c :: ds) = resolveRun cs ++ c :: resolveRun ds := by
  unfold resolveRun
  rw [unquoteToBytes_append h, decodeReplacing_append_ascii h.1, List.map_append, List.map_cons,
    char_ofNat_toNat h.isAscii]

theorem unquote_ascii {run : List CodePoint} (h : ∀ c ∈ run, c.isAscii = true) :
    unquote run = resolveRun run := by
  rcases eq_or_ne run [] with rfl | hne
  · rfl
  · have hchain : run.IsChain fun a b => (a.isAscii == b.isAscii) = true := by
      refine List.Pairwise.isChain (List.pairwise_of_forall_mem_list fun a ha b hb => ?_)
      rw [h a ha, h b hb]
      rfl
    have hall : run.all CodePoint.isAscii = true := List.all_eq_true.mpr h
    rw [unquote, List.splitBy_of_isChain hne hchain, List.flatMap_singleton, if_pos hall]
    rfl

theorem unquote_append {ds : List CodePoint}
    (h : ∀ x ∈ cs.getLast?, ∀ y ∈ ds.head?, x.isAscii ≠ y.isAscii) :
    unquote (cs ++ ds) = unquote cs ++ unquote ds := by
  unfold unquote
  rw [List.splitBy_append fun x hx y hy => beq_eq_false_iff_ne.mpr (h x hx y hy),
    List.flatMap_append]

theorem exists_last_run (cs : List CodePoint) : ∃ front run, cs = front ++ run ∧
    (∀ c ∈ run, c.isAscii = true) ∧ ∀ x ∈ front.getLast?, x.isAscii = false := by
  refine ⟨(cs.reverse.dropWhile CodePoint.isAscii).reverse,
    (cs.reverse.takeWhile CodePoint.isAscii).reverse,
    ?_, fun c hc => List.mem_takeWhile_imp (List.mem_reverse.mp hc), fun x hx => ?_⟩
  · rw [← List.reverse_append, List.takeWhile_append_dropWhile, List.reverse_reverse]
  · rw [List.getLast?_reverse] at hx
    have hhead := List.head?_dropWhile_not CodePoint.isAscii cs.reverse
    rw [Option.mem_def.mp hx] at hhead
    simpa using hhead

/-- A code point that belongs to no escape stays and divides the text into two that are resolved on
their own. -/
theorem unquote_cons (h : Separates c) (cs ds : List CodePoint) :
    unquote (cs ++ c :: ds) = unquote cs ++ c :: unquote ds := by
  obtain ⟨front, run, rfl, hrun, hfront⟩ := exists_last_run cs
  have hback : ∀ x ∈ (ds.dropWhile CodePoint.isAscii).head?, x.isAscii = false := by
    intro x hx
    have hhead := List.head?_dropWhile_not CodePoint.isAscii ds
    rw [Option.mem_def.mp hx] at hhead
    simpa using hhead
  have hnext : ∀ c ∈ ds.takeWhile CodePoint.isAscii, c.isAscii = true :=
    fun c hc => List.mem_takeWhile_imp hc
  have hmiddle : ∀ d ∈ run ++ c :: ds.takeWhile CodePoint.isAscii, d.isAscii = true := by
    intro d hd
    rcases List.mem_append.mp hd with hd | hd
    · exact hrun d hd
    · rcases List.mem_cons.mp hd with rfl | hd
      · exact h.isAscii
      · exact hnext d hd
  have hmeets : ∀ {cs ds : List CodePoint}, (∀ x ∈ cs.getLast?, x.isAscii = false) →
      (∀ y ∈ ds.head?, y.isAscii = true) → unquote (cs ++ ds) = unquote cs ++ unquote ds := by
    intro cs ds hcs hds
    refine unquote_append fun x hx y hy => ?_
    rw [hcs x hx, hds y hy]
    decide
  have hparts : ∀ {cs ds : List CodePoint}, (∀ x ∈ cs, x.isAscii = true) →
      (∀ y ∈ ds.head?, y.isAscii = false) → unquote (cs ++ ds) = unquote cs ++ unquote ds := by
    intro cs ds hcs hds
    refine unquote_append fun x hx y hy => ?_
    rw [hcs x (List.mem_of_getLast? hx), hds y hy]
    decide
  have hsplit : front ++ run ++ c :: ds = front ++ ((run ++ c :: ds.takeWhile CodePoint.isAscii) ++
      ds.dropWhile CodePoint.isAscii) := by
    simp only [List.append_assoc, List.cons_append, List.takeWhile_append_dropWhile]
  have hhead : ∀ y ∈ ((run ++ c :: ds.takeWhile CodePoint.isAscii) ++
      ds.dropWhile CodePoint.isAscii).head?, y.isAscii = true := by
    intro y hy
    rw [List.head?_append_of_ne_nil _ (by simp)] at hy
    exact hmiddle y (List.mem_of_head? hy)
  have hback' : unquote ds =
      unquote (ds.takeWhile CodePoint.isAscii) ++ unquote (ds.dropWhile CodePoint.isAscii) := by
    rw [← hparts hnext hback, List.takeWhile_append_dropWhile]
  rw [hsplit, hmeets hfront hhead, hparts hmiddle hback, unquote_ascii hmiddle, resolveRun_append h,
    hmeets hfront fun y hy => hrun y (List.mem_of_head? hy), unquote_ascii hrun, hback',
    unquote_ascii hnext]
  simp only [List.append_assoc, List.cons_append]

theorem unquote_length (cs : List CodePoint) :
    unquote cs = cs ∨ (unquote cs).length < cs.length := by
  have hruns : ∀ runs : List (List CodePoint), runs.flatMap (fun run =>
      if run.all CodePoint.isAscii then resolveRun run else run) = runs.flatten ∨
      (runs.flatMap fun run => if run.all CodePoint.isAscii then resolveRun run else run).length <
        runs.flatten.length := by
    intro runs
    induction runs with
    | nil => exact .inl rfl
    | cons run runs ih =>
      have hrun : (if run.all CodePoint.isAscii then resolveRun run else run) = run ∨
          (if run.all CodePoint.isAscii then resolveRun run else run).length < run.length := by
        split
        · next hall =>
          rw [List.all_eq_true] at hall
          rcases unquoteToBytes_length run with heq | hlt
          · refine .inl ?_
            unfold resolveRun
            rw [heq, decodeReplacing_toNat hall]
          · have hle := length_decodeFrom_le none (unquoteToBytes run)
            right
            unfold resolveRun decodeReplacing
            rw [List.length_map]
            simp only [Option.toList_none, List.length_nil, Nat.zero_add] at hle
            omega
        · exact .inl rfl
      rw [List.flatMap_cons, List.flatten_cons, List.length_append, List.length_append]
      rcases hrun with heq | hlt <;> rcases ih with heq' | hlt'
      · exact .inl (by rw [heq, heq'])
      · rw [heq]
        exact .inr (Nat.add_lt_add_left hlt' _)
      · rw [heq']
        exact .inr (Nat.add_lt_add_right hlt _)
      · exact .inr (Nat.add_lt_add hlt hlt')
  have hall := hruns (cs.splitBy fun a b => a.isAscii == b.isAscii)
  rw [List.flatten_splitBy] at hall
  exact hall

theorem exists_resolved (cs : List CodePoint) :
    ∃ n ≤ cs.length, unquote (unquote^[n] cs) = unquote^[n] cs := by
  induction hl : cs.length using Nat.strong_induction_on generalizing cs with
  | h l ih =>
    rcases unquote_length cs with heq | hlt
    · exact ⟨0, Nat.zero_le _, heq⟩
    · obtain ⟨n, hn, hfixed⟩ := ih _ (hl ▸ hlt) (unquote cs) rfl
      exact ⟨n + 1, by omega, hfixed⟩

/-- The text with all of its escapes resolved, and those that arise from them. -/
def fullyResolved (cs : List CodePoint) : List CodePoint := unquote^[cs.length] cs

theorem iterate_unquote_of_le {n : Nat} (h : cs.length ≤ n) :
    unquote^[n] cs = fullyResolved cs := by
  obtain ⟨k, hk, hfixed⟩ := exists_resolved cs
  have hstays : ∀ m, k ≤ m → unquote^[m] cs = unquote^[k] cs := by
    intro m hm
    obtain ⟨d, rfl⟩ := Nat.exists_eq_add_of_le' hm
    rw [Function.iterate_add_apply]
    exact Function.iterate_fixed hfixed d
  rw [fullyResolved, hstays n (hk.trans h), hstays _ hk]

end Dayjaview
