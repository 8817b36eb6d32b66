import Mathlib.Data.List.Basic

/-!
# String helpers

Functions of a `strings` package over lists of characters. Letters are folded in the ASCII range
only.
-/

namespace GoString

/-- White space in the sense of `unicode.IsSpace`. -/
def isSpace (c : Char) : Bool :=
  c = ' ' || ('\t'.toNat ≤ c.toNat && c.toNat ≤ '\r'.toNat) || c.toNat = 0x85 || c.toNat = 0xA0 ||
    c.toNat = 0x1680 || (0x2000 ≤ c.toNat && c.toNat ≤ 0x200A) || c.toNat = 0x2028 ||
    c.toNat = 0x2029 || c.toNat = 0x202F || c.toNat = 0x205F || c.toNat = 0x3000

variable (s : String)

def trimSpace : String :=
  String.ofList (((s.toList.dropWhile isSpace).reverse.dropWhile isSpace).reverse)

/-- `strings.ToLower`. -/
def toLower : String := String.ofList (s.toList.map Char.toLower)

/-- `strings.HasPrefix`. -/
def startsWith (s start : String) : Bool := start.toList.isPrefixOf s.toList

/-- `strings.HasSuffix`. -/
def endsWith (s last : String) : Bool := last.toList.reverse.isPrefixOf s.toList.reverse

/-- `strings.Contains`. -/
def contains (s part : String) : Bool := s.toList.tails.any part.toList.isPrefixOf

/-- What follows the first occurrence of `part`. -/
def after (s part : String) : Option String :=
  (s.toList.tails.find? part.toList.isPrefixOf).map fun rest =>
    String.ofList (rest.drop part.toList.length)

/-- What precedes the first occurrence of `c`, or all of the text. -/
def before (c : Char) : String := String.ofList (s.toList.takeWhile (· ≠ c))

def pieces (p : Char → Bool) : List Char → List (List Char)
  | [] => [[]]
  | c :: cs =>
    if p c then [] :: pieces p cs
    else match pieces p cs with
      | [] => [[c]]
      | piece :: rest => (c :: piece) :: rest

/-- `strings.Split` at one character. -/
def split (sep : Char) : List String := (pieces (· = sep) s.toList).map String.ofList

/-- `strings.SplitN` at one character, over characters. -/
def splitN (sep : Char) : Nat → List Char → List (List Char)
  | 0, _ => []
  | 1, cs => [cs]
  | n + 2, cs =>
    match cs.dropWhile (· ≠ sep) with
    | [] => [cs]
    | _ :: rest => cs.takeWhile (· ≠ sep) :: splitN sep (n + 1) rest

/-- `strings.Fields`. -/
def fields : List String :=
  ((pieces isSpace s.toList).filter (!·.isEmpty)).map String.ofList

def equalFold (s t : String) : Bool := toLower s = toLower t

/-- `strings.TrimPrefix`. -/
def trimStart (s start : String) : String :=
  if startsWith s start then String.ofList (s.toList.drop start.toList.length) else s

/-- `strings.Replace` of the first occurrence, over characters. -/
def replaceFirst (old new : List Char) : List Char → List Char
  | [] => if old.isEmpty then new else []
  | c :: cs =>
    if old.isPrefixOf (c :: cs) then new ++ (c :: cs).drop old.length
    else c :: replaceFirst old new cs

/-- `strings.TrimRight` of one character. -/
def trimRight (c : Char) : String :=
  String.ofList ((s.toList.reverse.dropWhile (· = c)).reverse)

def takeBytes : Nat → List Char → List Char
  | _, [] => []
  | n, c :: cs => if c.utf8Size ≤ n then c :: takeBytes (n - c.utf8Size) cs else []

/-- Trim the text and cut it after `max` bytes, not inside a character. -/
def truncate (max : Nat) : String :=
  let trimmed := trimSpace s
  if max = 0 then trimmed else String.ofList (takeBytes max trimmed.toList)

end GoString
