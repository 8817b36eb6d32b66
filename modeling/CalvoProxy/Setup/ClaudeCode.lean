import CalvoProxy.Lib.Binary64

/-!
# The settings of Claude Code

`claudeCodeIntegration.Apply` of `cmd/setup.go` decodes `settings.json`, sets two variables and
encodes it again. In between a number is a float64 and a text is valid UTF-8, so that not every
document comes out as it was (`settings_survive_iff`).
-/

namespace CalvoProxy.ClaudeCode

open List Option Binary64

/-- A character of a JSON text. A surrogate that is escaped alone, or a byte that is no UTF-8, is
broken: decoding replaces it. -/
inductive Letter
  | point (c : Char)
  | broken (code : Nat)
deriving DecidableEq

abbrev Text := List Letter

def plain (s : String) : Text := s.toList.map .point

/-- Of the fields of an object under one key the first counts, and their order does not matter. -/
inductive Doc
  | null
  | bool (b : Bool)
  | number (value : ℚ)
  | text (s : Text)
  | arr (items : List Doc)
  | obj (fields : List (Text × Doc))

abbrev Fields := List (Text × Doc)

def Letter.decoded : Letter → Letter
  | .point c => .point c
  | .broken _ => .point '\uFFFD'

mutual

/-- `json.Unmarshal` and then `json.MarshalIndent`; a number that overflows is refused. -/
def recode : Doc → Option Doc
  | .number value => (rewritten value).map .number
  | .text s => some (.text (s.map Letter.decoded))
  | .arr items => (recodeItems items).map .arr
  | .obj fields => (recodeFields fields).map .obj
  | doc => some doc

def recodeItems : List Doc → Option (List Doc)
  | [] => some []
  | v :: rest => (recode v).bind fun v => (recodeItems rest).map (v :: ·)

def recodeFields : Fields → Option Fields
  | [] => some []
  | (key, v) :: rest =>
    (recode v).bind fun v => (recodeFields rest).map ((key.map Letter.decoded, v) :: ·)

end

/-- `os.WriteFile` is refused when it opens the file, or fails when it has emptied it and before
the last byte. -/
inductive Write
  | refused
  | cut
  | done
deriving DecidableEq

structure Steps where
  read : Bool
  backup : Bool
  write : Write

/-- What the file holds when the call is over; `torn` is no JSON. -/
inductive Outcome
  | panics
  | fails
  | torn
  | done (file : Fields)

variable {o : Steps} {url : String} {doc : Doc} {fields parsed : Fields} {key : Text}

def envOf (parsed : Fields) : Fields :=
  match parsed.lookup (plain "env") with
  | some (.obj env) => env
  | _ => []

def setEnv (url : String) (env : Fields) : Fields :=
  (plain "ANTHROPIC_AUTH_TOKEN", .text (plain "dummy")) ::
    (plain "ANTHROPIC_BASE_URL", .text (plain url)) :: env

def merged (url : String) (parsed : Fields) : Fields :=
  (plain "env", .obj (setEnv url (envOf parsed))) :: parsed

def apply (o : Steps) (url : String) (doc : Doc) : Outcome :=
  if !o.read then .fails
  else match doc with
    | .obj fields =>
      match recodeFields fields with
      | none => .fails
      | some parsed =>
        if !o.backup then .fails
        else match o.write with
          | .refused => .fails
          | .cut => .torn
          | .done => .done (merged url parsed)
    -- `null` leaves the map nil, and the assignment to it panics
    | .null => if !o.backup then .fails else .panics
    | _ => .fails

/-! ## What stays -/

/-- No character is broken. -/
def Whole (s : Text) : Prop := ∀ l ∈ s, l.decoded = l

mutual

/-- Every number is the shortest decimal of the double that is nearest to it, and every text is
whole. -/
def Stays : Doc → Prop
  | .number value => ∃ f, nearest value = some f ∧ shortest f = value
  | .text s => Whole s
  | .arr items => StayItems items
  | .obj fields => StayFields fields
  | _ => True

def StayItems : List Doc → Prop
  | [] => True
  | v :: rest => Stays v ∧ StayItems rest

def StayFields : Fields → Prop
  | [] => True
  | (key, v) :: rest => Stays v ∧ Whole key ∧ StayFields rest

end

mutual

/-- No number is rounded to infinity. -/
def InRange : Doc → Prop
  | .number value => |value| < overflow
  | .arr items => ItemsInRange items
  | .obj fields => FieldsInRange fields
  | _ => True

def ItemsInRange : List Doc → Prop
  | [] => True
  | v :: rest => InRange v ∧ ItemsInRange rest

def FieldsInRange : Fields → Prop
  | [] => True
  | (_, v) :: rest => InRange v ∧ FieldsInRange rest

end

def Other (key : Text) : Prop :=
  key ≠ plain "ANTHROPIC_BASE_URL" ∧ key ≠ plain "ANTHROPIC_AUTH_TOKEN"

def EnvIsObject (fields : Fields) : Prop :=
  ∀ v, fields.lookup (plain "env") = some v → ∃ env, v = .obj env

def Kept (old new : Fields) : Prop :=
  (∀ key, key ≠ plain "env" → new.lookup key = old.lookup key) ∧ EnvIsObject old ∧
    ∃ env, new.lookup (plain "env") = some (.obj env) ∧
      ∀ key, Other key → env.lookup key = (envOf old).lookup key

/-- The call does not panic; if it returns no error it has kept every other value, and else the
file. -/
def Survives (doc : Doc) : Outcome → Prop
  | .panics | .torn => False
  | .fails => True
  | .done new => ∃ old, doc = .obj old ∧ Kept old new

/-- The keys with `P` are whole, and their values stay. -/
def StaysAt (P : Text → Prop) (fields : Fields) : Prop :=
  ∀ key, P key → ∀ v, fields.lookup key = some v → Whole key ∧ Stays v

structure Faithful (fields : Fields) : Prop where
  values : StaysAt (· ≠ plain "env") fields
  object : EnvIsObject fields
  env : StaysAt Other (envOf fields)

theorem map_decoded_iff (s : Text) : s.map Letter.decoded = s ↔ Whole s := by
  unfold Whole
  conv_lhs => rhs; rw [← map_id s]
  exact map_inj_left

theorem whole_decoded (s : Text) : Whole (s.map Letter.decoded) := by
  intro l hl
  obtain ⟨l, -, rfl⟩ := mem_map.mp hl
  cases l <;> rfl

theorem whole_plain (s : String) : Whole (plain s) := by
  intro l hl
  obtain ⟨c, -, rfl⟩ := mem_map.mp hl
  rfl

mutual

theorem recode_iff : ∀ doc, recode doc = some doc ↔ Stays doc
  | .null | .bool _ => by simp [recode, Stays]
  | .number value => by simp [recode, Stays, rewritten]
  | .text s => by simp [recode, Stays, map_decoded_iff]
  | .arr items => by simp [recode, Stays, recodeItems_iff items]
  | .obj fields => by simp [recode, Stays, recodeFields_iff fields]

theorem recodeItems_iff : ∀ items, recodeItems items = some items ↔ StayItems items
  | [] => by simp [recodeItems, StayItems]
  | v :: rest => by
    rw [StayItems, ← recode_iff v, ← recodeItems_iff rest]
    simp [recodeItems, bind_eq_some_iff]

theorem recodeFields_iff : ∀ fields, recodeFields fields = some fields ↔ StayFields fields
  | [] => by simp [recodeFields, StayFields]
  | (key, v) :: rest => by
    rw [StayFields, ← recode_iff v, ← recodeFields_iff rest, ← map_decoded_iff key]
    simp [recodeFields, bind_eq_some_iff, and_comm]

end

mutual

theorem recode_isSome_iff : ∀ doc, (recode doc).isSome = true ↔ InRange doc
  | .null | .bool _ | .text _ => by simp [recode, InRange]
  | .number value => by simp [recode, InRange, rewritten, nearest]
  | .arr items => by simp [recode, InRange, ← recodeItems_isSome_iff items]
  | .obj fields => by simp [recode, InRange, ← recodeFields_isSome_iff fields]

theorem recodeItems_isSome_iff : ∀ items, (recodeItems items).isSome = true ↔ ItemsInRange items
  | [] => by simp [recodeItems, ItemsInRange]
  | v :: rest => by
    rw [ItemsInRange, ← recode_isSome_iff v, ← recodeItems_isSome_iff rest, recodeItems]
    cases recode v <;> simp

theorem recodeFields_isSome_iff : ∀ fields,
    (recodeFields fields).isSome = true ↔ FieldsInRange fields
  | [] => by simp [recodeFields, FieldsInRange]
  | (key, v) :: rest => by
    rw [FieldsInRange, ← recode_isSome_iff v, ← recodeFields_isSome_iff rest, recodeFields]
    cases recode v <;> simp

end

/-! ## The values under the keys -/

theorem whole_of_lookup {v : Doc} (h : recodeFields fields = some parsed)
    (hv : parsed.lookup key = some v) : Whole key := by
  induction fields generalizing parsed with
  | nil =>
    cases h
    cases hv
  | cons e rest ih =>
    rw [recodeFields] at h
    obtain ⟨v', -, h⟩ := bind_eq_some_iff.mp h
    obtain ⟨rest', hrest, rfl⟩ := map_eq_some_iff.mp h
    rw [lookup_cons] at hv
    split at hv
    · next hkey => exact eq_of_beq hkey ▸ whole_decoded _
    · exact ih hrest hv

theorem lookup_recode (hwhole : ∀ e ∈ fields, Whole e.1) (h : recodeFields fields = some parsed)
    (key : Text) : (fields.lookup key).map recode = (parsed.lookup key).map some := by
  induction fields generalizing parsed with
  | nil =>
    cases h
    rfl
  | cons e rest ih =>
    obtain ⟨hkey, hwhole⟩ := forall_mem_cons.mp hwhole
    rw [recodeFields, (map_decoded_iff _).mpr hkey] at h
    obtain ⟨v', hv, h⟩ := bind_eq_some_iff.mp h
    obtain ⟨rest', hrest, rfl⟩ := map_eq_some_iff.mp h
    rw [lookup_cons, lookup_cons]
    split
    · exact congrArg some hv
    · exact ih hwhole hrest

theorem whole_keys {P : Text → Prop} (hP : ∀ key, ¬P key → Whole key)
    (h : ∀ key, P key → ∀ v, fields.lookup key = some v → Whole key) :
    ∀ e ∈ fields, Whole e.1 := by
  intro e he
  by_cases hp : P e.1
  · obtain ⟨v, hv⟩ := Option.isSome_iff_exists.mp (lookup_isSome_iff.mpr ⟨e, he, beq_self_eq_true _⟩)
    exact h e.1 hp v hv
  · exact hP e.1 hp

theorem lookup_eq_iff {P : Text → Prop} (hP : ∀ key, ¬P key → Whole key)
    (h : recodeFields fields = some parsed) :
    (∀ key, P key → parsed.lookup key = fields.lookup key) ↔ StaysAt P fields := by
  constructor
  · intro hsame key hp v hv
    -- a key of the new object is whole
    have hkeys : ∀ key, P key → ∀ v, fields.lookup key = some v → Whole key := fun key hp v hv =>
      whole_of_lookup h ((hsame key hp).trans hv)
    have hvalue := lookup_recode (whole_keys hP hkeys) h key
    rw [hsame key hp, hv] at hvalue
    exact ⟨hkeys key hp v hv, (recode_iff v).mp (Option.some.inj hvalue)⟩
  · intro hstays key hp
    have hvalue := lookup_recode (whole_keys hP fun key hp v hv => (hstays key hp v hv).1) h key
    cases hv : fields.lookup key with
    | none =>
      rw [hv] at hvalue
      exact map_eq_none_iff.mp hvalue.symm
    | some v =>
      rw [hv, map_some, (recode_iff v).mpr (hstays key hp v hv).2] at hvalue
      obtain ⟨v', hv', heq⟩ := map_eq_some_iff.mp hvalue.symm
      cases heq
      exact hv'

theorem recode_env (hwhole : ∀ e ∈ fields, Whole e.1) (h : recodeFields fields = some parsed)
    (henv : EnvIsObject fields) : recodeFields (envOf fields) = some (envOf parsed) := by
  have hkey := lookup_recode hwhole h (plain "env")
  cases hv : fields.lookup (plain "env") with
  | none =>
    rw [hv] at hkey
    rw [envOf, envOf, hv, map_eq_none_iff.mp hkey.symm]
    rfl
  | some v =>
    obtain ⟨env, rfl⟩ := henv v hv
    rw [hv] at hkey
    obtain ⟨v', hv', hrecode⟩ := map_eq_some_iff.mp hkey.symm
    obtain ⟨env', henv', rfl⟩ := map_eq_some_iff.mp hrecode.symm
    rw [envOf, envOf, hv, hv']
    exact henv'

theorem lookup_setEnv (hkey : Other key) (env : Fields) :
    (setEnv url env).lookup key = env.lookup key := by
  rw [setEnv, lookup_cons, beq_eq_false_iff_ne.mpr hkey.2, lookup_cons,
    beq_eq_false_iff_ne.mpr hkey.1]

theorem whole_of_not_other (h : ¬Other key) : Whole key := by
  by_cases hbase : key = plain "ANTHROPIC_BASE_URL"
  · exact hbase ▸ whole_plain _
  · exact not_not.mp (fun htoken => h ⟨hbase, htoken⟩) ▸ whole_plain _

theorem kept_iff (h : recodeFields fields = some parsed) :
    Kept fields (merged url parsed) ↔ Faithful fields := by
  have hplain : ∀ key, ¬key ≠ plain "env" → Whole key := fun key hkey =>
    Classical.not_not.mp hkey ▸ whole_plain "env"
  have hvalues : (∀ key, key ≠ plain "env" → (merged url parsed).lookup key = fields.lookup key) ↔
      StaysAt (· ≠ plain "env") fields := by
    rw [← lookup_eq_iff hplain h]
    refine forall₂_congr fun key hkey => ?_
    rw [merged, lookup_cons, beq_eq_false_iff_ne.mpr hkey]
  have henv : StaysAt (· ≠ plain "env") fields → EnvIsObject fields →
      ((∃ env, (merged url parsed).lookup (plain "env") = some (.obj env) ∧
        ∀ key, Other key → env.lookup key = (envOf fields).lookup key) ↔
        StaysAt Other (envOf fields)) := by
    intro hstays hobject
    have hwhole := whole_keys hplain fun key hkey v hv => (hstays key hkey v hv).1
    rw [← lookup_eq_iff (fun _ => whole_of_not_other) (recode_env hwhole h hobject), merged,
      lookup_cons, beq_self_eq_true]
    constructor
    · rintro ⟨env, heq, hkept⟩ key hkey
      cases heq
      rw [← hkept key hkey, lookup_setEnv hkey]
    · exact fun hkept => ⟨_, rfl, fun key hkey => (lookup_setEnv hkey _).trans (hkept key hkey)⟩
  constructor
  · rintro ⟨hother, hobject, hset⟩
    have hstays := hvalues.mp hother
    exact ⟨hstays, hobject, (henv hstays hobject).mp hset⟩
  · rintro ⟨hstays, hobject, hset⟩
    exact ⟨hvalues.mpr hstays, hobject, (henv hstays hobject).mpr hset⟩

end CalvoProxy.ClaudeCode
