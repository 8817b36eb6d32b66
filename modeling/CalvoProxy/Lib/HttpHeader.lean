import Mathlib
import CalvoProxy.Lib.GoMap
import CalvoProxy.Lib.GoString

/-!
# HTTP headers

A header maps canonical field names to lists of values. `merge` appends the fields of another
header, so a field that was set before is kept apart from it only if its name is skipped
(`values_merge`).
-/

def isTokenChar (c : Char) : Bool :=
  c.isAlphanum || "!#$%&'*+-.^_`|~".toList.contains c

structure FieldName where
  text : String
  token : text.toList.all isTokenChar = true
deriving DecidableEq

namespace FieldName

/-- Upper case at the start and after a hyphen, lower case elsewhere. -/
def canonicalChars : Bool → List Char → List Char
  | _, [] => []
  | upper, c :: cs => (if upper then c.toUpper else c.toLower) :: canonicalChars (c = '-') cs

/-- `CanonicalMIMEHeaderKey`. -/
def canonical (name : FieldName) : String :=
  String.ofList (canonicalChars true name.text.toList)

theorem toLower_eq_hyphen {c : Char} : c.toLower = '-' ↔ c = '-' := by
  constructor
  · intro h
    have halpha : c.isAlpha = false := by
      rw [← Char.isLower_toLower_eq_isAlpha, h]
      rfl
    have hupper : ¬c.isUpper = true := fun hup => by simp [Char.isAlpha, hup] at halpha
    rwa [Char.toLower_eq_of_not_isUpper hupper] at h
  · rintro rfl
    rfl

theorem canonicalChars_lower (upper : Bool) (cs : List Char) :
    canonicalChars upper (cs.map Char.toLower) = canonicalChars upper cs := by
  induction cs generalizing upper with
  | nil => rfl
  | cons c cs ih =>
    rw [List.map_cons, canonicalChars, canonicalChars, ih]
    simp only [Char.toUpper_toLower_eq_toUpper, Char.toLower_toLower_eq_toLower, toLower_eq_hyphen]

theorem lower_canonicalChars (upper : Bool) (cs : List Char) :
    (canonicalChars upper cs).map Char.toLower = cs.map Char.toLower := by
  induction cs generalizing upper with
  | nil => rfl
  | cons c cs ih =>
    rw [canonicalChars, List.map_cons, List.map_cons, ih]
    cases upper <;> simp

theorem canonical_eq_iff {name name' : FieldName} :
    name.canonical = name'.canonical ↔ GoString.toLower name.text = GoString.toLower name'.text := by
  unfold canonical GoString.toLower
  rw [String.ofList_inj, String.ofList_inj]
  constructor
  · intro h
    rw [← lower_canonicalChars true name.text.toList, h, lower_canonicalChars]
  · intro h
    rw [← canonicalChars_lower true name.text.toList, h, canonicalChars_lower]

end FieldName

/-- The header of a response that is being written, by canonical names. -/
abbrev HttpHeader := GoMap String (List String)

abbrev ReceivedHeader := GoMap FieldName (List String)

namespace HttpHeader

open List

def values (h : HttpHeader) (name : FieldName) : List String := (h.lookup name.canonical).getD []

def set (h : HttpHeader) (name : FieldName) (value : String) : HttpHeader :=
  h.insert name.canonical [value]

def add (h : HttpHeader) (name : FieldName) (value : String) : HttpHeader :=
  h.insert name.canonical (h.values name ++ [value])

@[simp] theorem values_set (h : HttpHeader) (name name' : FieldName) (value : String) :
    (h.set name value).values name' =
      if name'.canonical = name.canonical then [value] else h.values name' := by
  unfold values set
  rw [GoMap.lookup_insert_eq]
  split <;> rfl

theorem values_add (h : HttpHeader) (name name' : FieldName) (value : String) :
    (h.add name value).values name' =
      h.values name' ++ if name'.canonical = name.canonical then [value] else [] := by
  unfold add
  unfold values
  rw [GoMap.lookup_insert_eq]
  split
  · next heq => rw [heq]; rfl
  · rw [append_nil]

def merge (h : HttpHeader) (src : ReceivedHeader) (order : List FieldName) (skip : List String) :
    HttpHeader :=
  (src.range order).foldl (fun h e =>
    if GoString.toLower e.1.text ∈ skip then h else e.2.foldl (fun h v => h.add e.1 v) h) h

def received (src : ReceivedHeader) (order : List FieldName) (name : FieldName) : List String :=
  (src.range order).flatMap fun e => if name.canonical = e.1.canonical then e.2 else []

theorem values_addAll (h : HttpHeader) (name name' : FieldName) (vs : List String) :
    (vs.foldl (fun h v => h.add name v) h).values name' =
      h.values name' ++ if name'.canonical = name.canonical then vs else [] := by
  induction vs generalizing h with
  | nil => simp
  | cons v vs ih =>
    rw [foldl_cons, ih, values_add, append_assoc]
    split <;> simp

theorem values_merge (h : HttpHeader) (src : ReceivedHeader) (order : List FieldName)
    (skip : List String) (name : FieldName) :
    (h.merge src order skip).values name =
      h.values name ++ if GoString.toLower name.text ∈ skip then [] else received src order name := by
  unfold merge received
  induction src.range order generalizing h with
  | nil => simp
  | cons e es ih =>
    rw [foldl_cons, ih, flatMap_cons]
    by_cases hname : name.canonical = e.1.canonical
    · -- the entry is skipped exactly when the field is
      rw [FieldName.canonical_eq_iff.mp hname, if_pos hname]
      split
      · rfl
      · rw [values_addAll, if_pos hname, append_assoc]
    · rw [if_neg hname, nil_append]
      congr 1
      split
      · rfl
      · rw [values_addAll, if_neg hname, append_nil]

end HttpHeader
