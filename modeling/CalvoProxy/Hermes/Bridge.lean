import Mathlib.Data.List.Forall2
import Mathlib.Data.Rat.Defs
import CalvoProxy.Lib.Json

/-!
# The local bridge

`engine.py` of the Hermes integration: a local program may shorten old tool results.
`_safe_bridge_messages` checks its answer with Python's `==`, so that only the content of old tool
results can change (`bridge_edits_only_tool_results`).
-/

namespace CalvoProxy.Bridge

open List Json

variable {key s : String}

/-- A float; a NaN is the same as itself only. -/
inductive PyFloat
  | finite (x : ℚ)
  | infinite (negative : Bool)
  | nan (object : Nat)
deriving DecidableEq

inductive PyScalar
  | none
  | bool (b : Bool)
  | int (n : Int)
  | float (x : PyFloat)
  | str (s : String)
deriving DecidableEq

abbrev PyValue := Json PyScalar

abbrev Message := Fields PyScalar

def pyStr (s : String) : PyValue := .scalar (.str s)

def PyScalar.number? : PyScalar → Option PyFloat
  | bool b => some (.finite (if b then 1 else 0))
  | int n => some (.finite n)
  | float (.nan _) => Option.none
  | float x => some x
  | _ => Option.none

def PyScalar.eq (a b : PyScalar) : Bool :=
  match a, b with
  | none, none => true
  | str s, str t => s = t
  | a, b =>
    match a.number?, b.number? with
    | some x, some y => x = y
    | _, _ => false

/-- Inside a list or a dictionary an object is equal to itself. -/
def PyScalar.eqInside (a b : PyScalar) : Bool := a = b || a.eq b

def pyEq : PyValue → PyValue → Bool
  | .scalar a, .scalar b => a.eq b
  | x, y => eqBy PyScalar.eqInside x y

def Message.eq (before after : Message) : Bool := pyEq (.obj before) (.obj after)

def Message.get (m : Message) (key : String) : PyValue := (m.lookup key).getD (.scalar .none)

/-- Some value under a key other than `content` is different. -/
def otherValueDiffers (before after : Message) : Bool :=
  before.any fun e =>
    e.1 ≠ "content" && !pyEq (Message.get before e.1) (Message.get after e.1)

/-- The loop of `_safe_anthropic_content`. -/
def safeBlocks : List (PyValue × PyValue) → Bool → Bool
  | [], changed => changed
  | (old, new) :: rest, changed =>
    if pyEq old new then safeBlocks rest changed
    else
      match old, new with
      | .obj old, .obj new =>
        if !pyEq (Message.get old "type") (pyStr "tool_result") ||
            !pyEq (Message.get new "type") (pyStr "tool_result") then false
        else if !sameKeys old new then false
        else if otherValueDiffers old new then false
        else safeBlocks rest true
      | _, _ => false

def safeAnthropicContent (before after : PyValue) : Bool :=
  match before, after with
  | .arr before, .arr after =>
    if before.length ≠ after.length then false else safeBlocks (before.zip after) false
  | _, _ => false

def safeMessage (before after : Message) : Bool :=
  if !sameKeys before after then false
  else if !pyEq (Message.get before "role") (Message.get after "role") then false
  else if otherValueDiffers before after then false
  else if !pyEq (Message.get before "content") (Message.get after "content") then
    if pyEq (Message.get before "role") (pyStr "tool") then true
    else
      pyEq (Message.get before "role") (pyStr "user") &&
        safeAnthropicContent (Message.get before "content") (Message.get after "content")
  else true

def safeMessages : List Message → List PyValue → Option (List Message)
  | before :: original, .obj after :: candidate =>
    if safeMessage before after then (safeMessages original candidate).map (after :: ·) else none
  | [], [] => some []
  | _, _ => none

def safeBridgeMessages (original : List Message) (candidate : PyValue) : Option (List Message) :=
  match candidate with
  | .arr candidate =>
    if candidate.length ≠ original.length then none else safeMessages original candidate
  | _ => none

def toolProtocol : String := "calvoproxy.tool-compression.v1"

/-- What the call can raise. -/
inductive PyError
  | osError | subprocessError | valueError | typeError | attributeError | recursionError
deriving DecidableEq

/-- The `except` clause names the first four; a `RecursionError` is a `RuntimeError`. -/
def PyError.caught : PyError → Bool
  | attributeError | recursionError => false
  | _ => true

/-- The levels of nesting for which the stack has room where `json.dumps` and `json.loads` are
called. The comparisons start further out than `json.loads`, on parts of what it has read. -/
structure StackRoom where
  dumps : Nat
  loads : Nat

/-- The text on stdout as `json.loads` reads it: how far its brackets nest up to its end or its
first error, and its value if it is JSON. -/
structure Stdout where
  nesting : Nat
  value : Option PyValue
  depth_eq : ∀ v, value = some v → depth v = nesting

/-- `json.loads`. Brackets that open too often are noticed before a later error is. -/
def Stdout.loads (out : Stdout) (room : Nat) : Except PyError PyValue :=
  if room < out.nesting then .error .recursionError
  else
    match out.value with
    | none => .error .valueError
    | some v => .ok v

/-- How far the object that holds the messages nests. -/
def requestDepth (messages : List Message) : Nat := depthItems (messages.map .obj) + 2

inductive BridgeRun
  /-- the program cannot be started, takes too long, or prints no text -/
  | failed (err : PyError) (caught : err.caught = true)
  | exited (code : Int) (stdout : Stdout)

/-- The `try` block of `_call_cervo_bridge`. A response that is no object has no `get`. -/
def tryCervoBridge (room : StackRoom) (messages : List Message) (run : BridgeRun) :
    Except PyError (Option (List Message)) :=
  if room.dumps < requestDepth messages then .error .recursionError
  else
    match run with
    | .failed err _ => .error err
    | .exited code stdout =>
      if code ≠ 0 then .ok none
      else
        match stdout.loads room.loads with
        | .error err => .error err
        | .ok (.obj response) =>
          if !pyEq (Message.get response "version") (pyStr toolProtocol) then .ok none
          else .ok (safeBridgeMessages messages (Message.get response "messages"))
        | .ok _ => .error .attributeError

/-- `_call_cervo_bridge`; there is no run if no program is found. -/
def callCervoBridge (room : StackRoom) (messages : List Message) :
    Option BridgeRun → Except PyError (Option (List Message))
  | none => .ok none
  | some run =>
    match tryCervoBridge room messages run with
    | .ok checked => .ok checked
    | .error err => if err.caught then .ok none else .error err

def preprocessOldToolResults (room : StackRoom) (protectLastN : Int) (messages : List Message)
    (run : Option BridgeRun) : Except PyError (List Message × Nat) :=
  let boundary := (max 0 (messages.length - max 1 protectLastN)).toNat
  if boundary = 0 then .ok (messages, 0)
  else
    let before := messages.take boundary
    match callCervoBridge room before run with
    | .error err => .error err
    | .ok none => .ok (messages, 0)
    | .ok (some processed) =>
      if pyEq (.arr (processed.map .obj)) (.arr (before.map .obj)) then .ok (messages, 0)
      else
        let changed := (before.zip processed).countP fun pair => !Message.eq pair.1 pair.2
        .ok (processed ++ messages.drop boundary, changed)

structure SameBut (key : String) (before after : Message) : Prop where
  keys : sameKeys before after = true
  values : ∀ k x y, k ≠ key → before.lookup k = some x → after.lookup k = some y → pyEq x y = true

inductive ResultEdit : PyValue → PyValue → Prop
  | mk {old new : Message} (type : old.lookup "type" = some (pyStr "tool_result"))
      (same : SameBut "content" old new) : ResultEdit (.obj old) (.obj new)

inductive ToolEdit (before after : Message) : Prop
  | tool (role : before.lookup "role" = some (pyStr "tool")) (same : SameBut "content" before after)
  | user {old new : List PyValue} (role : before.lookup "role" = some (pyStr "user"))
      (same : SameBut "content" before after) (oldContent : before.lookup "content" = some (.arr old))
      (newContent : after.lookup "content" = some (.arr new)) (length : old.length = new.length)
      (blocks : ∀ pair ∈ old.zip new, pyEq pair.1 pair.2 = true ∨ ResultEdit pair.1 pair.2)

section Equality

variable {before after : Message}

theorem pyEq_str {v : PyValue} (h : pyEq v (pyStr s) = true) : v = pyStr s := by
  cases v with
  | arr items | obj fields => cases h
  | scalar a =>
    cases a with
    | str t =>
      rw [of_decide_eq_true (show decide (t = s) = true from h)]
      rfl
    | float x => cases x <;> cases h
    | _ => cases h

theorem eqBy_of_pyEq {x y : PyValue} (h : pyEq x y = true) : eqBy PyScalar.eqInside x y = true := by
  unfold pyEq at h
  split at h
  · rw [eqBy, PyScalar.eqInside, h, Bool.or_true]
  · exact h

theorem Message.eq_refl (m : Message) : Message.eq m m = true :=
  eqBy_refl (fun s => by simp [PyScalar.eqInside]) (.obj m)

theorem Message.get_str {m : Message} (h : pyEq (Message.get m key) (pyStr s) = true) :
    m.lookup key = some (pyStr s) := by
  have hget := pyEq_str h
  unfold Message.get at hget
  cases hlookup : m.lookup key with
  | none =>
    rw [hlookup] at hget
    cases hget
  | some v =>
    rw [hlookup] at hget
    rw [← hget]
    rfl

theorem Message.get_arr {m : Message} {items : List PyValue}
    (h : Message.get m key = .arr items) : m.lookup key = some (.arr items) := by
  unfold Message.get at h
  cases hlookup : m.lookup key with
  | none =>
    rw [hlookup] at h
    cases h
  | some v =>
    rw [hlookup] at h
    rw [← h]
    rfl

theorem sameBut_of_check (hkeys : sameKeys before after = true)
    (h : otherValueDiffers before after = false) : SameBut "content" before after := by
  refine ⟨hkeys, fun k x y hk hx hy => ?_⟩
  obtain ⟨first, rest, hbefore, -⟩ := lookup_eq_some_iff.mp hx
  have hmem : (k, x) ∈ before := hbefore ▸ mem_append_right _ mem_cons_self
  have hvalue := any_eq_false.mp h (k, x) hmem
  simpa [Message.get, hk, hx, hy] using hvalue

theorem SameBut.eq (h : SameBut key before after)
    (hvalue : pyEq (Message.get before key) (Message.get after key) = true) :
    Message.eq before after = true := by
  have hfields : eqFields PyScalar.eqInside [] before after = true := by
    refine eqFields_of_lookup fun k x _ hx => ?_
    obtain ⟨y, hy⟩ := lookup_of_sameKeys h.keys hx
    refine ⟨y, hy, eqBy_of_pyEq ?_⟩
    by_cases hk : k = key
    · subst hk
      simpa only [Message.get, hx, hy, Option.getD_some] using hvalue
    · exact h.values k x y hk hx hy
  rw [Message.eq, pyEq, eqBy, h.keys, hfields, Bool.and_self]
  all_goals simp

end Equality

/-! ## What passes the checks -/

section Checks

variable {before after : Message}

theorem safeBlocks_edits {pairs : List (PyValue × PyValue)} {changed : Bool}
    (h : safeBlocks pairs changed = true) :
    ∀ pair ∈ pairs, pyEq pair.1 pair.2 = true ∨ ResultEdit pair.1 pair.2 := by
  induction pairs generalizing changed with
  | nil => exact fun pair hpair => absurd hpair not_mem_nil
  | cons pair pairs ih =>
    obtain ⟨old, new⟩ := pair
    unfold safeBlocks at h
    split at h
    · next heq => exact forall_mem_cons.mpr ⟨.inl heq, ih h⟩
    split at h
    · next old new =>
      split at h
      · cases h
      next htype =>
      split at h
      · cases h
      next hkeys =>
      split at h
      · cases h
      next hvalues =>
      simp only [Bool.or_eq_true, not_or, Bool.not_eq_true', Bool.not_eq_false] at htype
      refine forall_mem_cons.mpr ⟨.inr ?_, ih h⟩
      refine .mk (Message.get_str htype.1) (sameBut_of_check ?_ ?_)
      · simpa using hkeys
      · simpa using hvalues
    · cases h

theorem safeAnthropicContent_edits {old new : PyValue} (h : safeAnthropicContent old new = true) :
    ∃ xs ys, old = .arr xs ∧ new = .arr ys ∧ xs.length = ys.length ∧
      ∀ pair ∈ xs.zip ys, pyEq pair.1 pair.2 = true ∨ ResultEdit pair.1 pair.2 := by
  unfold safeAnthropicContent at h
  split at h
  · next xs ys =>
    split at h
    · cases h
    · next hlength => exact ⟨xs, ys, rfl, rfl, not_not.mp hlength, safeBlocks_edits h⟩
  · cases h

theorem safeMessage_edits (h : safeMessage before after = true) :
    Message.eq before after = true ∨ ToolEdit before after := by
  unfold safeMessage at h
  split at h
  · cases h
  next hkeys =>
  split at h
  · cases h
  split at h
  · cases h
  next hvalues =>
  have hsame : SameBut "content" before after :=
    sameBut_of_check (by simpa using hkeys) (by simpa using hvalues)
  split at h
  · split at h
    · next hrole => exact .inr (.tool (Message.get_str hrole) hsame)
    obtain ⟨hrole, hcontent⟩ := Bool.and_eq_true_iff.mp h
    obtain ⟨xs, ys, hold, hnew, hlength, hblocks⟩ := safeAnthropicContent_edits hcontent
    exact .inr (.user (Message.get_str hrole) hsame (Message.get_arr hold)
      (Message.get_arr hnew) hlength hblocks)
  · next hcontent => exact .inl (hsame.eq (by simpa using hcontent))

theorem safeMessages_forall {original processed : List Message} {candidate : List PyValue}
    (h : safeMessages original candidate = some processed) :
    List.Forall₂ (fun before after => safeMessage before after = true) original processed := by
  induction original generalizing candidate processed with
  | nil =>
    cases candidate with
    | nil => cases h; exact .nil
    | cons c candidate => cases h
  | cons before original ih =>
    cases candidate with
    | nil => cases h
    | cons c candidate =>
      cases c with
      | scalar _ | arr _ => cases h
      | obj after =>
        rw [safeMessages] at h
        split at h
        · next hsafe =>
          obtain ⟨rest, hrest, rfl⟩ := Option.map_eq_some_iff.mp h
          exact .cons hsafe (ih hrest)
        · cases h

theorem tryCervoBridge_forall {room : StackRoom} {messages processed : List Message}
    {run : BridgeRun} (h : tryCervoBridge room messages run = .ok (some processed)) :
    List.Forall₂ (fun before after => safeMessage before after = true) messages processed := by
  unfold tryCervoBridge at h
  split at h
  · cases h
  split at h
  · cases h
  split at h
  · cases h
  split at h
  · cases h
  · split at h
    · cases h
    have hsafe := Except.ok.inj h
    unfold safeBridgeMessages at hsafe
    split at hsafe
    · split at hsafe
      · cases hsafe
      · exact safeMessages_forall hsafe
    · cases hsafe
  · cases h

theorem callCervoBridge_forall {room : StackRoom} {messages processed : List Message}
    {run : Option BridgeRun} (h : callCervoBridge room messages run = .ok (some processed)) :
    List.Forall₂ (fun before after => safeMessage before after = true) messages processed := by
  unfold callCervoBridge at h
  split at h
  · cases h
  split at h
  · next hchecked =>
    cases h
    exact tryCervoBridge_forall hchecked
  · split at h <;> cases h

end Checks

def differing (before after : List Message) : Nat :=
  (before.zip after).countP fun pair => !Message.eq pair.1 pair.2

theorem differing_self (messages : List Message) : differing messages messages = 0 := by
  induction messages with
  | nil => rfl
  | cons m messages ih =>
    unfold differing at ih ⊢
    rw [zip_cons_cons, countP_cons, ih, Message.eq_refl]
    rfl

theorem differing_append {before after : List Message} (h : before.length = after.length)
    (tail : List Message) :
    differing (before ++ tail) (after ++ tail) = differing before after := by
  unfold differing
  rw [zip_append h, countP_append]
  exact congrArg (_ + ·) (differing_self tail)

theorem edits_append {before after : List Message}
    (h : List.Forall₂ (fun before after => safeMessage before after = true) before after)
    (tail : List Message) {i : Nat} {m m' : Message} (hm : (before ++ tail)[i]? = some m)
    (hm' : (after ++ tail)[i]? = some m') :
    Message.eq m m' = true ∨ (i < before.length ∧ ToolEdit m m') := by
  by_cases hi : i < before.length
  · rw [List.getElem?_append_left hi] at hm
    rw [List.getElem?_append_left (h.length_eq ▸ hi)] at hm'
    have hpair : (m, m') ∈ before.zip after :=
      mem_of_getElem? (List.getElem?_zip_eq_some.mpr ⟨hm, hm'⟩)
    exact (safeMessage_edits (forall₂_zip h hpair)).imp_right fun hedit => ⟨hi, hedit⟩
  · have hle := Nat.le_of_not_lt hi
    rw [List.getElem?_append_right hle] at hm
    rw [List.getElem?_append_right (h.length_eq ▸ hle), ← h.length_eq, hm] at hm'
    cases hm'
    exact .inl (Message.eq_refl m)

/-- A call that returns has replaced nothing but contents of tool results among the old messages,
and counts the messages it has changed. -/
theorem bridge_edits_only_tool_results (room : StackRoom) (protectLastN : Int)
    (messages out : List Message) (run : Option BridgeRun) (changed : Nat)
    (h : preprocessOldToolResults room protectLastN messages run = .ok (out, changed)) :
    out.length = messages.length ∧ changed = differing messages out ∧
      ∀ (i : Nat) (before after : Message), messages[i]? = some before → out[i]? = some after →
        Message.eq before after = true ∨
          (i + max 1 protectLastN < messages.length ∧ ToolEdit before after) := by
  have hsame : messages.length = messages.length ∧ 0 = differing messages messages ∧
      ∀ (i : Nat) (before after : Message), messages[i]? = some before →
        messages[i]? = some after → Message.eq before after = true ∨
          (i + max 1 protectLastN < messages.length ∧ ToolEdit before after) := by
    refine ⟨rfl, (differing_self messages).symm, fun i before after hbefore hafter => .inl ?_⟩
    cases hbefore.symm.trans hafter
    exact Message.eq_refl before
  unfold preprocessOldToolResults at h
  dsimp only at h
  split at h
  · cases h
    exact hsame
  · split at h
    · cases h
    · cases h
      exact hsame
    · next processed hbridge =>
      split at h
      · cases h
        exact hsame
      · cases h
        have hsafe := callCervoBridge_forall hbridge
        generalize hboundary :
          (max 0 ((messages.length : Int) - max 1 protectLastN)).toNat = boundary at *
        have hsplit := take_append_drop boundary messages
        have hlength := hsafe.length_eq
        refine ⟨?_, ?_, fun i before after hbefore hafter => ?_⟩
        · conv_rhs => rw [← hsplit]
          rw [length_append, length_append, hlength]
        · have hcount := differing_append hlength (messages.drop boundary)
          rw [hsplit] at hcount
          exact hcount.symm
        · rw [← hsplit] at hbefore
          refine (edits_append hsafe _ hbefore hafter).imp_right fun hedit => ⟨?_, hedit.2⟩
          have hi := hedit.1
          rw [length_take] at hi
          omega

def sampleMessage (role : String) (content : PyValue) : Message :=
  [("role", pyStr role), ("content", content)]

/-- A program that exits with 0 after it has printed a value. -/
def printed (v : PyValue) : Option BridgeRun := some (.exited 0 ⟨depth v, some v, by rintro _ ⟨⟩; rfl⟩)

/-- The bridge shortens an old result and leaves the last message. -/
theorem old_result_shortened : let last := sampleMessage "user" (pyStr "go on")
    let messages := [sampleMessage "tool" (pyStr "a long text"), last]
    let shortened := sampleMessage "tool" (pyStr "a…")
    let run := printed (.obj
      [("version", pyStr toolProtocol), ("messages", .arr [.obj shortened])])
    preprocessOldToolResults ⟨9, 9⟩ 1 messages run = .ok ([shortened, last], 1) ∧
      ToolEdit (sampleMessage "tool" (pyStr "a long text")) shortened := by
  intro last messages shortened run
  have hrun : preprocessOldToolResults ⟨9, 9⟩ 1 messages run = .ok ([shortened, last], 1) := by rfl
  obtain ⟨-, -, hedits⟩ := bridge_edits_only_tool_results ⟨9, 9⟩ 1 messages _ run 1 hrun
  refine ⟨hrun, ?_⟩
  rcases hedits 0 _ _ rfl rfl with heq | hedit
  · exact absurd heq (by decide)
  · exact hedit.2

end CalvoProxy.Bridge
