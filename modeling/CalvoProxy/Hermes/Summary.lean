import Mathlib.Algebra.Ring.Nat
import CalvoProxy.Lib.Cutting
import CalvoProxy.Lib.GoString

/-!
# Handoff summaries

`summary.py` of the Hermes integration: `canonicalize_native_summary` builds a summary with six
fields from a native one. There is one function for each part of the regular expression
`^##\s+([^\r\n]+?)\s*$`, in the order in which the matcher tries them.
-/

namespace CalvoProxy.Summary

open Cutting

abbrev Text := List Char

/-! ## Python's text functions -/

/-- `str.isspace`, which is also `\s`. -/
def isSpace (c : Char) : Bool := GoString.isSpace c || (0x1C ≤ c.toNat && c.toNat ≤ 0x1F)

def strip (cs : Text) : Text := trim isSpace cs

/-- `str.casefold`, of which only the part on ASCII is fixed. -/
structure CaseFold where
  fold : Text → Text
  ascii : ∀ cs, (∀ c ∈ cs, c.toNat < 128) → fold cs = cs.map Char.toLower

/-- `re.sub(r"\s+", " ", …)`: the last character of each run becomes a space. -/
def collapse : Text → Text
  | [] => []
  | c :: cs =>
    if isSpace c then
      if cs.head?.any isSpace then collapse cs else ' ' :: collapse cs
    else c :: collapse cs

/-- `\s*$`, with as many blanks as possible. -/
def trailing : Text → Option Nat
  | [] => some 0
  | c :: cs =>
    if isSpace c then
      match trailing cs with
      | some n => some (n + 1)
      | none => if c = '\n' then some 0 else none
    else none

/-- `([^\r\n]+?)\s*$`, with a group as short as possible. -/
def title : Text → Option (Text × Nat)
  | [] => none
  | c :: cs =>
    if c = '\r' || c = '\n' then none
    else
      match trailing cs with
      | some n => some ([c], n + 1)
      | none => (title cs).map fun m => (c :: m.1, m.2 + 1)

/-- `\s+([^\r\n]+?)\s*$`, with as many blanks in front as possible. -/
def blanks : Text → Option (Text × Nat)
  | [] => none
  | c :: cs =>
    if isSpace c then
      match blanks cs with
      | some m => some (m.1, m.2 + 1)
      | none => (title cs).map fun m => (m.1, m.2 + 1)
    else none

/-- `##\s+([^\r\n]+?)\s*$`. -/
def heading : Text → Option (Text × Nat)
  | '#' :: '#' :: cs => (blanks cs).map fun m => (m.1, m.2 + 2)
  | _ => none

/-- `_HEADING_RE`; a line starts at the text and after a line feed. -/
def headingRe : Pattern Char Text
  | none, cs => heading cs
  | some c, cs => if c = '\n' then heading cs else none

abbrev Dict := List (Text × Text)

variable (f : CaseFold)

def headingKey (title : Text) : Text := f.fold (collapse (strip title))

def addSection (sections : Dict) (e : Text × Text) : Dict :=
  let key := headingKey f e.1
  let value := strip e.2
  if value ≠ [] ∧ sections.lookup key = none then sections ++ [(key, value)] else sections

def sections (summary : Text) : Dict :=
  (cut headingRe 0 none summary).2.foldl (addSection f) []

def first (sections : Dict) (names : List String) : Text :=
  ((names.map fun name => strip ((sections.lookup (f.fold name.toList)).getD [])).find?
    (· ≠ [])).getD []

def labeled (name : String) (value : Text) : Text := "### ".toList ++ name.toList ++ '\n' :: value

def joinLabeled (sections : Dict) (names : List String) : Text :=
  List.intercalate ['\n', '\n'] (names.filterMap fun name =>
    let value := first f sections [name]
    if value ≠ [] then some (labeled name value) else none)

def summaryProtocol : String := "calvoproxy.compaction-summary.v1"

def summaryMark : String := "[CONTEXT COMPACTION]"

def requiredFields : List String :=
  ["Objective", "Progress", "Constraints", "Files", "Blockers", "Next Action"]

def progressSources : List String :=
  ["Completed Actions", "Active State", "Key Decisions", "Resolved Questions", "Critical Context"]

def constraintSources : List String := ["Constraints & Preferences", "Pruned Skills To Reload"]

def nextActionSources : List String := ["Historical Task Snapshot", "Active Task", "Remaining Work"]

def fields (sections : Dict) : List (String × Text) :=
  [("Objective", first f sections ["Goal"]), ("Progress", joinLabeled f sections progressSources),
    ("Constraints", joinLabeled f sections constraintSources),
    ("Files", first f sections ["Relevant Files"]),
    ("Blockers", first f sections ["Blocked"]),
    ("Next Action", first f sections nextActionSources)]

def utf8Length (cs : Text) : Nat := (cs.map Char.utf8Size).sum

def validateStructuredSummary (summary : Text) : Bool :=
  if 64 * 1024 < utf8Length summary then false
  else if !summaryMark.toList.isPrefixOf summary then false
  else if !((summary.take 256).tails.any ("Protocol: " ++ summaryProtocol).toList.isPrefixOf) then
    false
  else
    let sections := sections f summary
    let required := requiredFields.map fun name => f.fold name.toList
    if !(sections.all (fun e => required.contains e.1) &&
        required.all fun key => (sections.map Prod.fst).contains key) then false
    else required.all fun key => strip ((sections.lookup key).getD []) ≠ []

def block (field : String × Text) : Text :=
  '#' :: '#' :: ' ' :: (field.1.toList ++ '\n' :: strip field.2)

def preamble : Text := (summaryMark ++ "\nProtocol: " ++ summaryProtocol ++ "\n\n").toList

def canonicalizeNativeSummary (native : Text) : Option Text :=
  if strip native = [] then none
  else
    let fields := fields f (sections f native)
    if fields.any fun field => strip field.2 = [] then none
    else
      let candidate := preamble ++ List.intercalate ['\n', '\n'] (fields.map block)
      if validateStructuredSummary f candidate then some candidate else none

end CalvoProxy.Summary
