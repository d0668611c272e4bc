import Dayjaview.Core.Json
import Dayjaview.Core.Urls

/-!
# Normalised addresses and titles

The keys by which duplicates are found: an address without its tracking parameters, a
title without the remarks of its publisher, and the digests of both.
-/

namespace Dayjaview.News

/-- The parameters of a query that only track. -/
def TRACKING_KEYS : List (List CodePoint) :=
  ["fbclid", "gclid", "igshid", "spm", "cmpid", "ref"].map codePoints

/-- How the names of further tracking parameters begin. -/
def TRACKING_OPENING : List CodePoint := codePoints "utm_"

/-- An address that is no absolute web address. -/
def notAbsolute : Error := ⟨.valueError, "원문 URL이 http(s) 절대 주소가 아닙니다"⟩

/-- The path without the slashes at its end. -/
def trimPath (path : List CodePoint) : List CodePoint :=
  let trimmed := (path.reverse.dropWhile (· == .char '/')).reverse
  if trimmed = [] then [.char '/'] else trimmed

/-- The order of the parameters of a query. -/
def fieldRank (field : List CodePoint × List CodePoint) : List Nat ×ₗ List Nat :=
  toLex (field.1.map CodePoint.toNat, field.2.map CodePoint.toNat)

section Addresses

variable [TextTables]

def isTracking (name : List CodePoint) : Bool :=
  TRACKING_KEYS.contains (TextTables.lower name) ||
    TRACKING_OPENING.isPrefixOf (TextTables.lower name)

/-- The host of an address with its port, where that is not the usual one. -/
def hostOf (parts : SplitResult) : Except Error (List CodePoint) := do
  let host := parts.hostname
  let host := if (codePoints "www.").isPrefixOf host then host.drop 4 else host
  match ← parts.port with
  | none => return host
  | some number =>
    if number = 80 ∨ number = 443 then return host
    return host ++ codePoints (String.ofList (':' :: natText number))

/-- The address that stands for all its variants. -/
def canonicalUrl (url : List CodePoint) : Except Error (List CodePoint) := do
  let parts ← urlsplit (stripPoints url)
  if (parts.scheme ≠ codePoints "http" ∧ parts.scheme ≠ codePoints "https") ∨ parts.netloc = [] then
    .error notAbsolute
  else
    let host ← hostOf parts
    let query := ranked fieldRank ((parseQsl parts.query).filter fun field => !isTracking field.1)
    let query ← urlencode query
    return urlunsplit ⟨codePoints "https", host, trimPath parts.path, query⟩

end Addresses

/-- A bracket that opens a remark. -/
def isOpening (c : Char) : Bool := c == '[' || c == '(' || c == '【'

/-- A bracket that closes a remark. -/
def isClosing (c : Char) : Bool := c == ']' || c == ')' || c == '】'

/-- The title with a blank for each remark, from within one or not. -/
def dropRemarks : Bool → List Char → List Char
  | _, [] => []
  | true, c :: cs => if isClosing c then ' ' :: dropRemarks false cs else dropRemarks true cs
  | false, c :: cs =>
    if isOpening c && cs.any isClosing then dropRemarks true cs else c :: dropRemarks false cs

/-- A character of a word of a title. -/
def isWordChar (c : Char) : Bool :=
  ('0' ≤ c && c ≤ '9') || ('a' ≤ c && c ≤ 'z') || ('가' ≤ c && c ≤ '힣')

/-- The title with a blank for each run of other characters, from within one or not. -/
def joinWords : Bool → List Char → List Char
  | _, [] => []
  | within, c :: cs =>
    if isWordChar c then c :: joinWords false cs
    else if within then joinWords true cs
    else ' ' :: joinWords true cs

/-- The title is that of a notice about a stock. -/
def isFeaturedStockTitle (title : String) : Bool :=
  match title.toList.dropWhile isSpace with
  | [] => false
  | c :: cs => isOpening c && "특징주".toList.isPrefixOf (cs.dropWhile isSpace)

section Digests

variable [UnicodeTable]

def normalizedTitle (title : String) : String :=
  let folded := (dropRemarks false title.toList).flatMap UnicodeTable.casefold
  String.ofList (stripChars (joinWords false folded))

variable [Sha256]

/-- The digest of the words of a title. -/
def titleHash (title : String) : String := hexdigest (normalizedTitle title)

/-- The digest of the words of title and description. -/
def contentHash (title description : String) : String :=
  hexdigest s!"{normalizedTitle title}\n{normalizedTitle description}"

omit [UnicodeTable] in
/-- The id of the item at an address. -/
def newsId (canonical : String) : String := "news_" ++ takeText 32 (hexdigest canonical)

end Digests

example :
    letI : UnicodeTable := .ascii
    normalizedTitle "[특징주 강세] 한국원전, 수주 (종합)!" = "한국원전 수주" := by
  decide +kernel

end Dayjaview.News
