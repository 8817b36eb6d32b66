import CalvoProxy.Setup.Codex

/-!
# Where the block lands in a TOML file

A key belongs to the last table header above it, and `replaceMarkedBlock` appends the block at the
end: `model_provider` is a top-level key exactly if the file has no header (`takes_effect_iff`). The
file is cut into expressions: a newline ends one unless it is in a string of several lines or
between brackets. A valid file ends outside of these (`Complete`).

The reading is lexical and does not see whether a table is defined twice: behind a top-level
`model_providers = {}` the header `[model_providers.calvoproxy]` of the block makes the file
invalid.
-/

namespace CalvoProxy.Codex

open List

/-- Where in an expression a character stands; `depth` counts the open brackets. -/
inductive Mode
  | code (depth : Nat)
  | comment (depth : Nat)
  /-- behind one or two quotes that may open a string -/
  | opening (quote : Char) (n depth : Nat)
  | string (quote : Char) (depth : Nat)
  /-- in a string of several lines, behind `n` quotes -/
  | multiline (quote : Char) (n depth : Nat)
  | escaped (back : Mode)

namespace Mode

def readCode (depth : Nat) (c : Char) : Mode :=
  if c = '"' ∨ c = '\'' then .opening c 1 depth
  else if c = '#' then .comment depth
  else if c = '[' ∨ c = '\x7b' then .code (depth + 1)
  else if c = ']' ∨ c = '\x7d' then .code (depth - 1)
  else .code depth

def readString (quote : Char) (depth : Nat) (c : Char) : Mode :=
  if c = quote then .code depth
  else if c = '\\' ∧ quote = '"' then .escaped (.string quote depth)
  else .string quote depth

def read : Mode → Char → Mode
  | .code depth, c => readCode depth c
  | .comment depth, c => if c = '\n' then .code depth else .comment depth
  | .opening quote n depth, c =>
    if c = quote then if n = 1 then .opening quote 2 depth else .multiline quote 0 depth
    else if n = 1 then readString quote depth c
    else readCode depth c
  | .string quote depth, c => readString quote depth c
  | .multiline quote n depth, c =>
    if c = quote then .multiline quote (n + 1) depth
    else if 3 ≤ n then readCode depth c
    else if c = '\\' ∧ quote = '"' then .escaped (.multiline quote 0 depth)
    else .multiline quote 0 depth
  | .escaped back, _ => back

/-- A newline ends the expression. -/
def closed : Mode → Bool
  | .code depth | .comment depth => depth = 0
  | .opening _ n depth => n = 2 && depth = 0
  | .multiline _ n depth => 3 ≤ n && depth = 0
  | _ => false

def after (m : Mode) : Text → Mode
  | [] => m
  | c :: cs => if c = '\n' ∧ m.closed then after (.code 0) cs else after (m.read c) cs

end Mode

abbrev Complete (t : Text) : Prop := (Mode.after (.code 0) t).closed = true

/-- The expressions of a text; `current` is what has been read of the first one. -/
def cut (m : Mode) (current : Text) : Text → List Text
  | [] => [current]
  | c :: cs =>
    if c = '\n' ∧ m.closed then current :: cut (.code 0) [] cs
    else cut (m.read c) (current ++ [c]) cs

def expressions (t : Text) : List Text := cut (.code 0) [] t

def unindented (expression : Text) : Text :=
  expression.dropWhile fun c => c = ' ' || c = '\t' || c = '\r'

def isHeader (expression : Text) : Bool := (unindented expression).head? == some '['

def isPair (expression : Text) : Bool :=
  match (unindented expression).head? with
  | none | some '#' | some '[' => false
  | _ => true

/-- The pairs of key and value, each with the header it stands under. -/
def pairs (table : Option Text) : List Text → List (Option Text × Text)
  | [] => []
  | e :: es =>
    if isHeader e then pairs (some e) es
    else if isPair e then (table, e) :: pairs table es
    else pairs table es

def config (t : Text) : List (Option Text × Text) := pairs none (expressions t)

def keyOf (expression : Text) : Text :=
  ((unindented expression).takeWhile fun c => c ≠ '=' && c ≠ ' ' && c ≠ '\t').filter
    fun c => c ≠ '"' && c ≠ '\''

def providerPair : Text := "model_provider = \"calvoproxy\"".toList

/-- The key is at top level, and every key that was there keeps its table and value, as far as the
file is still valid TOML. -/
def TakesEffect (existing baseURL : Text) : Prop :=
  (none, providerPair) ∈ config (replaceMarkedBlock existing (render baseURL)) ∧
    config existing <+: config (replaceMarkedBlock existing (render baseURL))

variable {m : Mode} {current existing baseURL a b e : Text} {es : List Text}

theorem cut_newline (h : (m.after a).closed = true) :
    cut m current (a ++ '\n' :: b) = cut m current a ++ expressions b := by
  induction a generalizing m current with
  | nil => exact if_pos ⟨rfl, h⟩
  | cons c cs ih =>
    rw [cons_append, cut, cut]
    rw [Mode.after] at h
    split
    · next hend =>
      rw [if_pos hend] at h
      rw [ih h, cons_append]
    · next hend =>
      rw [if_neg hend] at h
      exact ih h

def lastTable (table : Option Text) (es : List Text) : Option Text :=
  es.foldl (fun table e => if isHeader e then some e else table) table

theorem pairs_append (table : Option Text) (es es' : List Text) :
    pairs table (es ++ es') = pairs table es ++ pairs (lastTable table es) es' := by
  induction es generalizing table with
  | nil => rfl
  | cons e es ih =>
    rw [cons_append, pairs, pairs, lastTable, foldl_cons]
    split
    · exact ih (some e)
    · split
      · rw [ih, cons_append, lastTable]
      · exact ih table

theorem lastTable_some (t : Text) (es : List Text) : (lastTable (some t) es).isSome = true := by
  induction es generalizing t with
  | nil => rfl
  | cons e es ih =>
    rw [lastTable, foldl_cons]
    split
    · exact ih e
    · exact ih t

theorem lastTable_none_iff : lastTable none es = none ↔ ∀ e ∈ es, isHeader e = false := by
  induction es with
  | nil => exact iff_of_true rfl fun e he => absurd he not_mem_nil
  | cons e es ih =>
    rw [lastTable, foldl_cons, forall_mem_cons]
    cases hheader : isHeader e with
    | true =>
      have hsome := lastTable_some e es
      refine iff_of_false (fun hnone => ?_) fun h => Bool.noConfusion h.1
      rw [lastTable] at hsome
      rw [if_pos rfl] at hnone
      rw [hnone] at hsome
      cases hsome
    | false => exact ih.trans (and_iff_right rfl).symm

theorem not_mem_pairs_some (t : Text) (es : List Text) : (none, e) ∉ pairs (some t) es := by
  induction es generalizing t with
  | nil => exact not_mem_nil
  | cons e' es ih =>
    rw [pairs]
    split
    · exact ih e'
    split
    · rintro (_ | ⟨_, hmem⟩)
      exact ih t hmem
    · exact ih t

/-- The block as it is read: a comment, the pair, and the table. -/
theorem expressions_render (baseURL : Text) : ∃ es, expressions (render baseURL ++ ['\n']) =
    codexBlockStart :: providerPair :: es := by
  have hstart : Complete codexBlockStart := by decide +kernel
  have hpair : Complete providerPair := by decide +kernel
  obtain ⟨rest, hrest⟩ : ∃ rest, render baseURL ++ ['\n'] =
      codexBlockStart ++ '\n' :: (providerPair ++ '\n' :: rest) := ⟨_, rfl⟩
  refine ⟨expressions rest, ?_⟩
  rw [hrest, expressions, cut_newline hstart, expressions, cut_newline hpair]
  rfl

theorem config_replaced (baseURL : Text) (hvalid : Complete existing) (hblock : ∀ i j,
      index codexBlockStart existing = some i → index codexBlockEnd existing = some j → ¬i < j) :
    ∃ es, config (replaceMarkedBlock existing (render baseURL)) = config existing ++
      (lastTable none (expressions existing), providerPair) ::
        pairs (lastTable none (expressions existing)) es := by
  obtain ⟨es, hes⟩ := expressions_render baseURL
  refine ⟨es, ?_⟩
  rw [replace_of_not_paired hblock, appended, append_assoc, singleton_append, config, separated]
  split
  · rw [append_assoc, singleton_append, expressions, cut_newline hvalid, pairs_append]
    congr 1
    have hblank : expressions ('\n' :: (render baseURL ++ ['\n'])) =
        [] :: expressions (render baseURL ++ ['\n']) := rfl
    rw [hblank, hes]
    rfl
  · rw [expressions, cut_newline hvalid, pairs_append, hes]
    rfl

/-- The provider takes effect exactly if the file has no table header. -/
theorem takes_effect_iff (hvalid : Complete existing) (hblock : ∀ i j,
      index codexBlockStart existing = some i → index codexBlockEnd existing = some j → ¬i < j)
    (hkey : ∀ p ∈ config existing, p.1 = none → keyOf p.2 ≠ "model_provider".toList) :
    TakesEffect existing baseURL ↔ ∀ e ∈ expressions existing, isHeader e = false := by
  obtain ⟨es, hes⟩ := config_replaced baseURL hvalid hblock
  rw [TakesEffect, hes, and_iff_left (prefix_append _ _), ← lastTable_none_iff]
  constructor
  · intro hmem
    cases hlast : lastTable none (expressions existing) with
    | none => rfl
    | some t =>
      rw [hlast] at hmem
      rcases mem_append.mp hmem with hold | ⟨_, _⟩ | ⟨_, hnew⟩
      · exact absurd (by decide) (hkey _ hold rfl)
      · exact absurd hnew (not_mem_pairs_some t es)
  · intro hlast
    rw [hlast]
    exact mem_append_right _ mem_cons_self

def features : Text := "model = \"o3\"\n\n[features]\nweb_search = true\n".toList

theorem plain_takes_effect :
    TakesEffect "model = \"o3\"".toList "http://localhost:8080".toList := by
  have hnone : index codexBlockStart "model = \"o3\"".toList = none := by decide +kernel
  refine (takes_effect_iff (by decide +kernel) ?_ (by decide +kernel)).mpr (by decide +kernel)
  intro i j hi
  cases hnone.symm.trans hi

/-- Behind a table header the provider is a key of that table. -/
theorem provider_in_table : Complete features ∧ index codexBlockStart features = none ∧
    (some "[features]".toList, providerPair) ∈
      config (replaceMarkedBlock features (render "http://localhost:8080".toList)) ∧
    (none, providerPair) ∉
      config (replaceMarkedBlock features (render "http://localhost:8080".toList)) := by
  decide +kernel

end CalvoProxy.Codex
