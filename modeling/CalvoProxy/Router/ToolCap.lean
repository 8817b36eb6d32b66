import CalvoProxy.Lib.Json
import CalvoProxy.Lib.Utf8
import Mathlib.Algebra.Ring.Nat
import Mathlib.Logic.Function.Basic

/-!
# Clipped tool results

`router_compress.go` cuts the middle out of a long tool result. A message is a map at an address,
which the code copies before it writes (`compressRequest_exact`). The cuts go by bytes and may fall
inside a rune (`compressRequest_valid_iff`).
-/

namespace CalvoProxy

open List Option Function

open Json (Fields)

/-- The scalars of a message. A text is a string of bytes, as in Go. -/
inductive WireScalar
  | null
  | bool (b : Bool)
  | number (value : Rat)
  | string (bytes : List UInt8)

abbrev WireValue := Json WireScalar

/-- The maps by their addresses; those from `next` on are free. -/
structure Heap where
  next : Nat
  maps : Nat → Fields WireScalar

def Heap.alloc (h : Heap) (m : Fields WireScalar) : Heap :=
  ⟨h.next + 1, update h.maps h.next m⟩

def Heap.write (h : Heap) (a : Nat) (m : Fields WireScalar) : Heap :=
  { h with maps := update h.maps a m }

inductive Entry
  | map (a : Nat)
  | scalar (s : WireScalar)
  | arr (items : List WireValue)

def Entry.read (h : Heap) : Entry → WireValue
  | .map a => .obj (h.maps a)
  | .scalar s => .scalar s
  | .arr items => .arr items

/-- The messages of a decoded body are missing if they are no array. -/
structure WireBody where
  heap : Heap
  messages : Option (List Entry)
  rest : Fields WireScalar
  allocated : ∀ a, .map a ∈ messages.getD [] → a < heap.next

def ascii (s : String) : List UInt8 := s.toList.map fun c => UInt8.ofNat c.toNat

def ellipsis : List UInt8 := [0xE2, 0x80, 0xA6]

def toolCutMarker (omitted : Nat) : List UInt8 :=
  0x0A :: (ellipsis ++ ascii " [truncated: " ++ ascii (toString omitted) ++
    ascii " bytes omitted by CalvoProxy] " ++ ellipsis ++ [0x0A])

def messageContent (m : Fields WireScalar) : Option (List UInt8) :=
  match m.lookup "content" with
  | some (.scalar (.string bytes)) => some bytes
  | _ => none

def messageRole (m : Fields WireScalar) : List UInt8 :=
  match m.lookup "role" with
  | some (.scalar (.string bytes)) => bytes
  | _ => []

def cloneMessages : List Entry → Heap → Heap × List Entry
  | [], h => (h, [])
  | .map a :: rest, h =>
    let r := cloneMessages rest (h.alloc (h.maps a))
    (r.1, .map h.next :: r.2)
  | e :: rest, h =>
    let r := cloneMessages rest h
    (r.1, e :: r.2)

section Code

-- `valid` is `json.Valid`
variable (valid : List UInt8 → Bool) (limit : Nat)

def clipped (content : List UInt8) : List UInt8 :=
  let half := limit / 2
  content.take half ++ toolCutMarker (content.length - 2 * half) ++
    content.drop (content.length - half)

/-- The new content, and how many bytes it is shorter. -/
def capContent (m : Fields WireScalar) : Option (List UInt8 × Nat) :=
  if messageRole m ≠ ascii "tool" then none
  else match messageContent m with
    | none => none
    | some content =>
      if content.length ≤ limit then none
      else if valid content then none
      else if content.length ≤ (clipped limit content).length then none
      else some (clipped limit content, content.length - (clipped limit content).length)

def applyToolCap : List Entry → Heap → Heap × Nat
  | [], h => (h, 0)
  | .map a :: rest, h =>
    match capContent valid limit (h.maps a) with
    | none => applyToolCap rest h
    | some (content, fewer) =>
      let r := applyToolCap rest
        (h.write a (Json.set "content" (.scalar (.string content)) (h.maps a)))
      (r.1, fewer + r.2)
  | _ :: rest, h => applyToolCap rest h

structure CompressResult where
  heap : Heap
  messages : Option (List Entry)
  rest : Fields WireScalar
  savedBytes : Nat

def compressRequest (body : WireBody) : CompressResult :=
  let original := body.messages.getD []
  if limit = 0 ∨ original = [] then ⟨body.heap, body.messages, body.rest, 0⟩
  else
    let (heap, messages) := cloneMessages original body.heap
    let (heap, saved) := applyToolCap valid limit messages heap
    if saved = 0 then ⟨heap, body.messages, body.rest, 0⟩
    else ⟨heap, some messages, body.rest, saved⟩

end Code

/-! ## What becomes of a message -/

section Values

variable (valid : List UInt8 → Bool) (limit : Nat)

def WireValue.content : WireValue → Option (List UInt8)
  | .obj m => messageContent m
  | _ => none

/-- A tool result that is too long, is no JSON, and gets shorter. -/
structure Clips (v : WireValue) (m : Fields WireScalar) (content : List UInt8) : Prop where
  object : v = .obj m
  role : messageRole m = ascii "tool"
  text : messageContent m = some content
  long : limit < content.length
  noJSON : valid content = false
  shorter : (clipped limit content).length < content.length

def withContent (m : Fields WireScalar) (content : List UInt8) : WireValue :=
  .obj (Json.set "content" (.scalar (.string content)) m)

def capValue : WireValue → WireValue
  | .obj m => match capContent valid limit m with
    | none => .obj m
    | some (content, _) => withContent m content
  | v => v

def totalBytes (vs : List WireValue) : Nat := (vs.map fun v => (v.content.getD []).length).sum

variable {valid limit}

theorem content_withContent (m : Fields WireScalar) (content : List UInt8) :
    (withContent m content).content = some content := by
  simp [withContent, WireValue.content, messageContent, Json.lookup_set]

theorem capContent_cases (m : Fields WireScalar) :
    (capContent valid limit m = none ∧ ∀ content, ¬Clips valid limit (.obj m) m content) ∨
      ∃ content, Clips valid limit (.obj m) m content ∧ capContent valid limit m =
        some (clipped limit content, content.length - (clipped limit content).length) := by
  unfold capContent
  split
  · next hrole => exact .inl ⟨rfl, fun _ h => hrole h.role⟩
  next hrole =>
  cases htext : messageContent m with
  | none => exact .inl ⟨rfl, fun _ h => by cases htext.symm.trans h.text⟩
  | some content =>
    have hsame : ∀ content', Clips valid limit (.obj m) m content' → content' = content :=
      fun _ h => Option.some.inj (h.text.symm.trans htext)
    simp only
    split
    · next hshort =>
      exact .inl ⟨rfl, fun _ h => absurd (hsame _ h ▸ h.long) (Nat.not_lt.mpr hshort)⟩
    · next hlong =>
      split
      · next hjson => exact .inl ⟨rfl, fun _ h => by cases hjson.symm.trans (hsame _ h ▸ h.noJSON)⟩
      next hjson =>
      split
      · next hcost =>
        exact .inl ⟨rfl, fun _ h => absurd (hsame _ h ▸ h.shorter) (Nat.not_lt.mpr hcost)⟩
      · next hcost =>
        exact .inr ⟨content, ⟨rfl, Classical.not_not.mp hrole, htext, Nat.not_le.mp hlong,
          Bool.eq_false_iff.mpr hjson, Nat.not_le.mp hcost⟩, rfl⟩

theorem capValue_cases (v : WireValue) :
    (capValue valid limit v = v ∧ ∀ m content, ¬Clips valid limit v m content) ∨
      ∃ m content, Clips valid limit v m content ∧
        capValue valid limit v = withContent m (clipped limit content) := by
  cases v with
  | scalar s | arr items => exact .inl ⟨rfl, fun _ _ h => by cases h.object⟩
  | obj m =>
    simp only [capValue]
    rcases capContent_cases m with ⟨hcap, hnone⟩ | ⟨content, h, hcap⟩
    · rw [hcap]
      refine .inl ⟨rfl, fun m' content h => ?_⟩
      obtain rfl : m = m' := by injection h.object
      exact hnone content h
    · rw [hcap]
      exact .inr ⟨m, content, h, rfl⟩

def fewer (valid : List UInt8 → Bool) (limit : Nat) (v : WireValue) : Nat :=
  (v.content.getD []).length - ((capValue valid limit v).content.getD []).length

theorem capValue_bytes (v : WireValue) : (v.content.getD []).length =
      fewer valid limit v + ((capValue valid limit v).content.getD []).length ∧
      (fewer valid limit v = 0 → capValue valid limit v = v) := by
  unfold fewer
  rcases @capValue_cases valid limit v with ⟨heq, -⟩ | ⟨m, content, h, heq⟩
  · rw [heq]
    exact ⟨by omega, fun _ => rfl⟩
  · have hshorter := h.shorter
    rw [heq, content_withContent, h.object, WireValue.content, h.text]
    simp only [getD_some]
    exact ⟨by omega, fun hzero => absurd hzero (by omega)⟩

theorem totalBytes_cap (vs : List WireValue) :
    totalBytes vs = (vs.map (fewer valid limit)).sum + totalBytes (vs.map (capValue valid limit)) ∧
      ((vs.map (fewer valid limit)).sum = 0 → vs.map (capValue valid limit) = vs) := by
  induction vs with
  | nil => exact ⟨rfl, fun _ => rfl⟩
  | cons v vs ih =>
    obtain ⟨hbytes, hsame⟩ := @capValue_bytes valid limit v
    simp only [totalBytes, map_cons, sum_cons] at ih ⊢
    refine ⟨by omega, fun hzero => ?_⟩
    rw [hsame (by omega), ih.2 (by omega)]

end Values

/-- The addresses go up, from `low` on. -/
inductive Ascending : Nat → List Entry → Prop
  | nil {low : Nat} : Ascending low []
  | map {low a : Nat} {rest : List Entry} (ha : low ≤ a) (h : Ascending (a + 1) rest) :
      Ascending low (.map a :: rest)
  | other {low : Nat} {e : Entry} {rest : List Entry} (he : ∀ a, e ≠ .map a)
      (h : Ascending low rest) : Ascending low (e :: rest)

theorem Entry.read_other {e : Entry} (he : ∀ a, e ≠ .map a) (valid : List UInt8 → Bool)
    (limit : Nat) (h h' : Heap) :
    e.read h' = e.read h ∧ capValue valid limit (e.read h) = e.read h := by
  cases e with
  | map a => exact absurd rfl (he a)
  | scalar s | arr items => exact ⟨rfl, rfl⟩

theorem Ascending.read {low : Nat} {es : List Entry} (hes : Ascending low es) {h h' : Heap}
    (hsame : ∀ a, low ≤ a → h'.maps a = h.maps a) : es.map (·.read h') = es.map (·.read h) := by
  induction hes with
  | nil => rfl
  | map ha _ ih =>
    rw [map_cons, map_cons, ih fun b hb => hsame b (by omega), Entry.read, hsame _ ha, Entry.read]
  | other he _ ih =>
    rw [map_cons, map_cons, ih hsame, (Entry.read_other he (fun _ => true) 0 h h').1]

theorem cloneMessages_spec {es : List Entry} {h : Heap} (hes : ∀ a, .map a ∈ es → a < h.next) :
    let r := cloneMessages es h
    h.next ≤ r.1.next ∧ (∀ a < h.next, r.1.maps a = h.maps a) ∧ Ascending h.next r.2 ∧
      r.2.map (·.read r.1) = es.map (·.read h) := by
  induction es generalizing h with
  | nil => exact ⟨Nat.le_refl _, fun _ _ => rfl, .nil, rfl⟩
  | cons e es ih =>
    have htail : ∀ a, .map a ∈ es → a < h.next := fun a ha => hes a (mem_cons_of_mem _ ha)
    cases e with
    | scalar v | arr v =>
      obtain ⟨hnext, hold, hasc, hread⟩ := ih htail
      exact ⟨hnext, hold, .other (fun _ he => by cases he) hasc, congrArg (_ :: ·) hread⟩
    | map a =>
      have hmaps : ∀ b < h.next, (h.alloc (h.maps a)).maps b = h.maps b := fun b hb =>
        update_of_ne (Nat.ne_of_lt hb) _ _
      obtain ⟨hnext, hold, hasc, hread⟩ := @ih (h.alloc (h.maps a)) fun b hb =>
        Nat.lt_succ_of_lt (htail b hb)
      refine ⟨Nat.le_of_succ_le hnext, fun b hb => ?_, .map (Nat.le_refl _) hasc, ?_⟩
      · exact (hold b (Nat.lt_succ_of_lt hb)).trans (hmaps b hb)
      · have hcopy : (cloneMessages es (h.alloc (h.maps a))).1.maps h.next = h.maps a :=
          (hold _ (Nat.lt_succ_self _)).trans (update_self ..)
        refine congrArg₂ (· :: ·) (congrArg Json.obj hcopy) (hread.trans ?_)
        refine map_congr_left fun e he => ?_
        cases e with
        | scalar v | arr v => rfl
        | map b => exact congrArg Json.obj (hmaps b (htail b he))

theorem applyToolCap_spec (valid : List UInt8 → Bool) (limit : Nat) {low : Nat} {es : List Entry}
    (hes : Ascending low es) (h : Heap) :
    let r := applyToolCap valid limit es h
    (∀ a < low, r.1.maps a = h.maps a) ∧
      es.map (·.read r.1) = (es.map (·.read h)).map (capValue valid limit) ∧
      r.2 = ((es.map (·.read h)).map (fewer valid limit)).sum := by
  induction hes generalizing h with
  | nil => exact ⟨fun _ _ => rfl, rfl, rfl⟩
  | @other low e rest he _ ih =>
    obtain ⟨hold, hread, hsaved⟩ := ih h
    have hskip : applyToolCap valid limit (e :: rest) h = applyToolCap valid limit rest h := by
      cases e with
      | map a => exact absurd rfl (he a)
      | scalar v | arr v => rfl
    obtain ⟨hsame, hcap⟩ := Entry.read_other he valid limit h (applyToolCap valid limit rest h).1
    have hzero : fewer valid limit (e.read h) = 0 := by rw [fewer, hcap, Nat.sub_self]
    simp only [hskip, map_cons, sum_cons, hsame, hcap, hzero, Nat.zero_add]
    exact ⟨hold, congrArg _ hread, hsaved⟩
  | @map low a rest ha hrest ih =>
    -- the message at `a` is written once, and the entries behind it are above it
    have hspec : ∀ m, capValue valid limit (.obj (h.maps a)) = .obj m →
        let r := applyToolCap valid limit rest (h.write a m)
        (∀ b < low, r.1.maps b = h.maps b) ∧ (.map a :: rest).map (·.read r.1) =
            ((Entry.map a :: rest).map (·.read h)).map (capValue valid limit) ∧
          r.2 = ((rest.map (·.read h)).map (fewer valid limit)).sum := by
      intro m hm
      obtain ⟨hold, hread, hsaved⟩ := ih (h.write a m)
      have hbehind : rest.map (·.read (h.write a m)) = rest.map (·.read h) :=
        hrest.read fun b hb => update_of_ne (by omega) _ _
      rw [hbehind] at hread hsaved
      refine ⟨fun b hb => ?_, ?_, hsaved⟩
      · exact (hold b (by omega)).trans (update_of_ne (by omega) _ _)
      · have hat : (applyToolCap valid limit rest (h.write a m)).1.maps a = m :=
          (hold a (Nat.lt_succ_self a)).trans (update_self ..)
        refine congrArg₂ (· :: ·) ?_ hread
        show Json.obj _ = capValue valid limit (.obj (h.maps a))
        rw [hat, hm]
    obtain ⟨hbytes, -⟩ := @capValue_bytes valid limit (.obj (h.maps a))
    rcases @capContent_cases valid limit (h.maps a) with ⟨hcap, -⟩ | ⟨content, hclips, hcap⟩
    · have hsame : h.write a (h.maps a) = h := by rw [Heap.write, update_eq_self]
      have hm : capValue valid limit (.obj (h.maps a)) = .obj (h.maps a) := by
        simp only [capValue, hcap]
      obtain ⟨hold, hread, hsaved⟩ := hspec _ hm
      rw [hsame] at hold hread hsaved
      rw [hm] at hbytes
      simp only [applyToolCap, hcap]
      refine ⟨hold, hread, hsaved.trans ?_⟩
      have hzero : fewer valid limit ((Entry.map a).read h) = 0 := Nat.left_eq_add.mp
        ((Nat.add_comm ..).trans hbytes.symm).symm
      rw [map_cons, map_cons, sum_cons, hzero, Nat.zero_add]
    · have hm : capValue valid limit (.obj (h.maps a)) =
          withContent (h.maps a) (clipped limit content) := by
        simp only [capValue, hcap]
      obtain ⟨hold, hread, hsaved⟩ := hspec _ hm
      rw [hm, content_withContent, WireValue.content, hclips.text] at hbytes
      simp only [applyToolCap, hcap]
      refine ⟨hold, hread, congrArg₂ (· + ·) ?_ hsaved⟩
      simp only [getD_some] at hbytes
      show _ = fewer valid limit (.obj (h.maps a))
      omega

def WireBody.values (body : WireBody) : List WireValue :=
  (body.messages.getD []).map (·.read body.heap)

def CompressResult.values (r : CompressResult) : List WireValue :=
  (r.messages.getD []).map (·.read r.heap)

section Result

variable (valid : List UInt8 → Bool) (limit : Nat) (body : WireBody)

theorem compressRequest_spec (hlimit : limit ≠ 0) : let r := compressRequest valid limit body
    (∀ a < body.heap.next, r.heap.maps a = body.heap.maps a) ∧ r.rest = body.rest ∧
      r.values = body.values.map (capValue valid limit) ∧
      r.savedBytes = (body.values.map (fewer valid limit)).sum := by
  unfold compressRequest CompressResult.values WireBody.values
  simp only
  split
  · next h =>
    have hnil := h.resolve_left hlimit
    simp [hnil]
  · obtain ⟨hnext, hclone, hasc, hread⟩ := cloneMessages_spec body.allocated
    obtain ⟨hcap, hread', hsaved⟩ := applyToolCap_spec valid limit hasc
      (cloneMessages (body.messages.getD []) body.heap).1
    have hold : ∀ a < body.heap.next, (applyToolCap valid limit
        (cloneMessages (body.messages.getD []) body.heap).2
        (cloneMessages (body.messages.getD []) body.heap).1).1.maps a = body.heap.maps a :=
      fun a ha => (hcap a ha).trans (hclone a ha)
    rw [hread] at hread' hsaved
    split
    · next hzero =>
      have hsame := (@totalBytes_cap valid limit
        ((body.messages.getD []).map (·.read body.heap))).2 (hsaved.symm.trans hzero)
      refine ⟨hold, rfl, ?_, hzero.symm.trans hsaved⟩
      rw [hsame]
      refine map_congr_left fun e he => ?_
      cases e with
      | scalar v | arr v => rfl
      | map a => exact congrArg Json.obj (hold a (body.allocated a he))
    · exact ⟨hold, rfl, hread', hsaved⟩

end Result

def longResult : WireBody where
  heap := ⟨1, fun _ => [("role", .scalar (.string (ascii "tool"))),
    ("content", .scalar (.string (List.replicate 1024 0x61)))]⟩
  messages := some [.map 0]
  rest := []
  allocated := fun a ha => by
    cases mem_singleton.mp ha
    exact Nat.one_pos

theorem ascii_digits (n : Nat) : ∀ b ∈ ascii (toString n), b ≤ 0x7F := by
  intro b hb
  obtain ⟨c, hc, rfl⟩ := mem_map.mp hb
  rw [show (toString n).toList = Nat.toDigits 10 n from Nat.toList_repr] at hc
  have hdigit := Nat.isDigit_of_mem_toDigits (by decide) (by decide) hc
  simp only [Char.isDigit, Bool.and_eq_true, decide_eq_true_eq] at hdigit
  have hle : c.toNat ≤ 57 := UInt32.le_iff_toNat_le.mp hdigit.2
  rw [UInt8.le_iff_toNat_le, UInt8.toNat_ofNat']
  exact Nat.le_trans (Nat.mod_le _ _) (Nat.le_trans hle (by decide))

theorem valid_marker (xs ys : List UInt8) (n : Nat) :
    Utf8.valid (xs ++ toolCutMarker n ++ ys) = (Utf8.valid xs && Utf8.valid ys) := by
  have hmiddle : Utf8.valid (ellipsis ++ ascii " [truncated: " ++ ascii (toString n) ++
      ascii " bytes omitted by CalvoProxy] " ++ ellipsis) = true := by
    rw [show ascii " [truncated: " = 0x20 :: ascii "[truncated: " from rfl]
    simp only [append_assoc, cons_append]
    rw [Utf8.valid_ascii (by decide), Utf8.valid_ascii_append (by decide +kernel),
      Utf8.valid_ascii_append (ascii_digits n), Utf8.valid_ascii_append (by decide +kernel)]
    decide
  simp only [toolCutMarker, append_assoc, cons_append, nil_append] at hmiddle ⊢
  rw [Utf8.valid_ascii (by decide)]
  simp only [← append_assoc] at hmiddle ⊢
  rw [Utf8.valid_ascii (by decide), hmiddle, Bool.true_and]

section Text

variable (valid : List UInt8 → Bool) (limit : Nat) (body : WireBody)

/-- The byte behind the first cut and the one behind the second are no tails of a rune. -/
structure CutsBetweenRunes (content : List UInt8) : Prop where
  first : content[limit / 2]?.any Utf8.isTail = false
  second : content[content.length - limit / 2]?.any Utf8.isTail = false

variable {limit} in
theorem clipped_valid_iff {content : List UInt8} (hlimit : 512 ≤ limit)
    (hlong : limit < content.length) (hvalid : Utf8.valid content = true) :
    Utf8.valid (clipped limit content) = true ↔ CutsBetweenRunes limit content := by
  have hcut : ∀ {i : Nat}, i < content.length → ∃ b, content[i]? = some b :=
    fun hi => ⟨_, List.getElem?_eq_getElem hi⟩
  obtain ⟨b, hb⟩ := hcut (show limit / 2 < content.length by omega)
  obtain ⟨b', hb'⟩ := hcut (show content.length - limit / 2 < content.length by omega)
  rw [clipped, valid_marker, Bool.and_eq_true, (Utf8.valid_cut_iff hvalid hb).1,
    (Utf8.valid_cut_iff hvalid hb').2]
  constructor
  · rintro ⟨h, h'⟩
    exact ⟨by rwa [hb], by rwa [hb']⟩
  · rintro ⟨h, h'⟩
    rw [hb] at h
    rw [hb'] at h'
    exact ⟨h, h'⟩

/-- A valid text stays valid exactly if it is clipped between runes. -/
theorem compressRequest_valid_iff (hlimit : 512 ≤ limit) :
    (∀ (i : Nat) v v' content content', body.values[i]? = some v →
      (compressRequest valid limit body).values[i]? = some v' → v.content = some content →
      Utf8.valid content = true → v'.content = some content' → Utf8.valid content' = true) ↔
    ∀ v ∈ body.values, ∀ m content, Clips valid limit v m content →
      Utf8.valid content = true → CutsBetweenRunes limit content := by
  obtain ⟨-, -, hvalues, -⟩ := compressRequest_spec valid limit body (by omega)
  rw [hvalues]
  constructor
  · intro h v hv m content hclips hvalid
    obtain ⟨i, hi⟩ := List.getElem?_of_mem hv
    rcases @capValue_cases valid limit v with ⟨-, hnone⟩ | ⟨m', content', hclips', heq⟩
    · exact absurd hclips (hnone m content)
    obtain rfl : m = m' := by injection hclips.object.symm.trans hclips'.object
    obtain rfl : content = content' := Option.some.inj (hclips.text.symm.trans hclips'.text)
    refine (clipped_valid_iff hlimit hclips.long hvalid).mp
      (h i v _ content _ hi ?_ ?_ hvalid (content_withContent m _))
    · rw [List.getElem?_map, hi, map_some, heq]
    · rw [hclips.object]
      exact hclips.text
  · intro h i v v' content content' hv hv' hcontent hvalid hcontent'
    rw [List.getElem?_map, hv, map_some, Option.some.injEq] at hv'
    rcases @capValue_cases valid limit v with ⟨heq, -⟩ | ⟨m, text, hclips, heq⟩
    · rw [← hv', heq, hcontent] at hcontent'
      cases hcontent'
      exact hvalid
    · rw [hclips.object, WireValue.content, hclips.text] at hcontent
      obtain rfl : text = content := Option.some.inj hcontent
      rw [← hv', heq, content_withContent] at hcontent'
      cases hcontent'
      exact (clipped_valid_iff hlimit hclips.long hvalid).mpr
        (h v (mem_of_getElem? hv) m text hclips hvalid)

end Text

/-- A tool result of 400 letters that take two bytes each, behind some other text. -/
def accented (before : List UInt8) : WireBody where
  heap := ⟨1, fun _ => [("role", .scalar (.string (ascii "tool"))),
    ("content", .scalar (.string (before ++ (List.replicate 400 [0xC3, 0xA9]).flatten)))]⟩
  messages := some [.map 0]
  rest := []
  allocated := longResult.allocated

theorem accented_valid : (compressRequest (fun _ => false) 512 (accented [])).savedBytes = 234 ∧
    ∀ (i : Nat) v v' content content', (accented []).values[i]? = some v →
      (compressRequest (fun _ => false) 512 (accented [])).values[i]? = some v' →
      v.content = some content → Utf8.valid content = true → v'.content = some content' →
      Utf8.valid content' = true := by
  refine ⟨by decide +kernel, ?_⟩
  refine (compressRequest_valid_iff _ _ _ (Nat.le_refl _)).mpr fun v hv m content hclips _ => ?_
  cases mem_singleton.mp hv
  cases hclips.object
  cases hclips.text
  exact ⟨by decide +kernel, by decide +kernel⟩

/-- Behind one letter of one byte the first cut goes through a rune. -/
theorem accented_invalid : (accented [0x61]).values.all (fun v => v.content.all Utf8.valid) = true ∧
      (compressRequest (fun _ => false) 512 (accented [0x61])).values.all
        (fun v => v.content.all Utf8.valid) = false := by
  decide +kernel

end CalvoProxy
