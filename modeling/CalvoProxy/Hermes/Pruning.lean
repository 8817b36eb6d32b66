import CalvoProxy.Hermes.Bridge

/-!
# Pruning through the bridge

`prune_tool_results_only` of `engine.py`, and the envelope of `cmd/compact_tools.go`. A reply that
is JSON but no object, and one that nests too deep to be read, raise an error that nobody catches
(`prune_preserves_iff`). The envelope
gives every message a role and a content, so that a history with a message that lacks one is
rejected (`envelope_transparent_iff`).
-/

namespace CalvoProxy.Bridge

open List Json

variable {m : Message} {k : String} {v : PyValue}

structure ContextEngine where
  protectLastN : Int
  toolPruneTokens : Int
  pruneCooldownSeconds : ℚ
  lastPruneAt : ℚ
  guarded : Bool

namespace ContextEngine

/-- `start` and `stop` are the two readings of the clock. -/
def pruneToolResultsOnly (room : StackRoom) (e : ContextEngine) (messages : List Message)
    (currentTokens : Option Int) (start stop : ℚ) (run : Option BridgeRun) :
    ContextEngine × Except PyError (List Message × Nat) :=
  if currentTokens.any (· < e.toolPruneTokens) then (e, .ok (messages, 0))
  else if start - e.lastPruneAt < e.pruneCooldownSeconds then (e, .ok (messages, 0))
  else if e.guarded then (e, .ok (messages, 0))
  else
    let e := { e with guarded := true }
    match preprocessOldToolResults room e.protectLastN messages run with
    | .error err => ({ e with guarded := false }, .error err)
    | .ok (processed, changed) =>
      ({ e with lastPruneAt := stop, guarded := false },
        .ok (if changed ≠ 0 then (processed, changed) else (messages, 0)))

def oldMessages (e : ContextEngine) (messages : List Message) : List Message :=
  messages.take (max 0 (messages.length - max 1 e.protectLastN)).toNat

/-- The call gets as far as the bridge. -/
structure Asks (e : ContextEngine) (messages : List Message) (currentTokens : Option Int)
    (start : ℚ) : Prop where
  tokens : currentTokens.any (· < e.toolPruneTokens) = false
  cooled : ¬start - e.lastPruneAt < e.pruneCooldownSeconds
  free : e.guarded = false
  old : max 1 e.protectLastN < messages.length

end ContextEngine

/-- The reply has the right version, and its messages pass the checks and differ from the old
ones. -/
def Accepted (before : List Message) (run : Option BridgeRun) : Prop :=
  ∃ stdout response processed, run = some (.exited 0 stdout) ∧
    stdout.value = some (.obj response) ∧
    pyEq (Message.get response "version") (pyStr toolProtocol) = true ∧
    safeBridgeMessages before (Message.get response "messages") = some processed ∧
    pyEq (.arr (processed.map .obj)) (.arr (before.map .obj)) = false

structure Preserved (e : ContextEngine) (messages : List Message) (run : Option BridgeRun)
    (r : ContextEngine × Except PyError (List Message × Nat)) : Prop where
  released : r.1.guarded = e.guarded
  returns : ∃ out changed, r.2 = .ok (out, changed)
  kept : ¬Accepted (e.oldMessages messages) run → r.2 = .ok (messages, 0)

def IsObject : PyValue → Prop
  | .obj _ => True
  | _ => False

/-- The stack has room for the request and the reply, and a reply that is JSON is an object. -/
structure Manageable (room : StackRoom) (before : List Message) (run : BridgeRun) : Prop where
  request : requestDepth before ≤ room.dumps
  reply : ∀ stdout, run = .exited 0 stdout → stdout.nesting ≤ room.loads
  object : ∀ stdout, run = .exited 0 stdout → ∀ v, stdout.value = some v → IsObject v

section Call

variable {room : StackRoom} {before : List Message}

theorem callCervoBridge_returns {run : Option BridgeRun}
    (h : ∀ r, run = some r → Manageable room before r) :
    callCervoBridge room before run = .ok none ∨
      ∃ stdout response processed, run = some (.exited 0 stdout) ∧
        stdout.value = some (.obj response) ∧
        pyEq (Message.get response "version") (pyStr toolProtocol) = true ∧
        safeBridgeMessages before (Message.get response "messages") = some processed ∧
        callCervoBridge room before run = .ok (some processed) := by
  rcases run with - | run
  · exact .inl rfl
  have hrun := h run rfl
  rw [callCervoBridge, tryCervoBridge.eq_def, if_neg hrun.request.not_gt]
  rcases run with ⟨err, hcaught⟩ | ⟨code, stdout⟩
  · exact .inl (by simp [hcaught])
  by_cases hcode : code = 0
  · subst hcode
    simp only [ne_eq, not_true_eq_false, if_false, Stdout.loads.eq_def,
      if_neg (hrun.reply stdout rfl).not_gt]
    cases hvalue : stdout.value with
    | none => exact .inl rfl
    | some v =>
      have hobject := hrun.object stdout rfl v hvalue
      cases v with
      | scalar _ | arr _ => exact hobject.elim
      | obj response =>
        by_cases hversion : pyEq (Message.get response "version") (pyStr toolProtocol) = true
        · cases hsafe : safeBridgeMessages before (Message.get response "messages") with
          | none => simp [hversion, hsafe]
          | some processed =>
            exact .inr ⟨stdout, response, processed, rfl, hvalue, hversion, hsafe,
              by simp [hversion, hsafe]⟩
        · simp [hversion]
  · exact .inl (by simp [hcode])

theorem callCervoBridge_raises {run : BridgeRun} (h : ¬Manageable room before run) :
    ∃ err, callCervoBridge room before (some run) = .error err := by
  rw [callCervoBridge, tryCervoBridge.eq_def]
  by_cases hrequest : requestDepth before ≤ room.dumps
  · rw [if_neg hrequest.not_gt]
    rcases run with ⟨err, hcaught⟩ | ⟨code, stdout⟩
    · exact absurd ⟨hrequest, by simp, by simp⟩ h
    by_cases hcode : code = 0
    · subst hcode
      simp only [ne_eq, not_true_eq_false, if_false, Stdout.loads.eq_def]
      by_cases hreply : stdout.nesting ≤ room.loads
      · rw [if_neg hreply.not_gt]
        cases hvalue : stdout.value with
        | none => exact absurd ⟨hrequest, by simp [hreply], by simp [hvalue]⟩ h
        | some v =>
          cases v with
          | scalar _ | arr _ => exact ⟨_, rfl⟩
          | obj response => exact absurd ⟨hrequest, by simp [hreply], by simp [hvalue, IsObject]⟩ h
      · rw [if_pos (by omega)]
        exact ⟨_, rfl⟩
    · exact absurd ⟨hrequest, by simp [hcode], by simp [hcode]⟩ h
  · rw [if_pos (by omega)]
    exact ⟨_, rfl⟩

theorem preprocess_returns (e : ContextEngine) (messages : List Message) {run : Option BridgeRun}
    (h : max 1 e.protectLastN < messages.length →
      ∀ r, run = some r → Manageable room (e.oldMessages messages) r) :
    ∃ out, preprocessOldToolResults room e.protectLastN messages run = .ok out ∧
      (¬Accepted (e.oldMessages messages) run → out = (messages, 0)) := by
  unfold preprocessOldToolResults
  simp only
  rw [← ContextEngine.oldMessages]
  split
  · exact ⟨_, rfl, fun _ => rfl⟩
  next hold =>
  rcases callCervoBridge_returns (h (by omega)) with hcall |
    ⟨stdout, response, processed, hrun, hvalue, hversion, hsafe, hcall⟩
  · simp only [hcall]
    exact ⟨_, rfl, fun _ => rfl⟩
  · simp only [hcall]
    split
    · exact ⟨_, rfl, fun _ => rfl⟩
    · next hdiffers =>
      exact ⟨_, rfl, fun hnot => absurd ⟨stdout, response, processed, hrun, hvalue, hversion, hsafe,
        Bool.eq_false_iff.mpr hdiffers⟩ hnot⟩

theorem preprocess_raises (e : ContextEngine) {messages : List Message} {run : BridgeRun}
    (hold : max 1 e.protectLastN < messages.length)
    (h : ¬Manageable room (e.oldMessages messages) run) :
    ∃ err, preprocessOldToolResults room e.protectLastN messages (some run) = .error err := by
  obtain ⟨err, hcall⟩ := callCervoBridge_raises h
  unfold preprocessOldToolResults
  simp only
  rw [if_neg (by omega), ← ContextEngine.oldMessages]
  simp only [hcall]
  exact ⟨err, rfl⟩

end Call

/-- Pruning returns, with its guard released and the messages as they were unless the reply is
accepted, exactly if a call that gets as far as the program can read what it prints. -/
theorem prune_preserves_iff (room : StackRoom) (e : ContextEngine) (messages : List Message)
    (currentTokens : Option Int) (start stop : ℚ) (run : Option BridgeRun) :
    Preserved e messages run (e.pruneToolResultsOnly room messages currentTokens start stop run) ↔
      (e.Asks messages currentTokens start →
        ∀ r, run = some r → Manageable room (e.oldMessages messages) r) := by
  have hskip : ∀ {p : Prop}, ¬e.Asks messages currentTokens start →
      (Preserved e messages run (e, .ok (messages, 0)) ↔
        (e.Asks messages currentTokens start → p)) := fun hnot =>
    ⟨fun _ hasks => absurd hasks hnot, fun _ => ⟨rfl, ⟨_, _, rfl⟩, fun _ => rfl⟩⟩
  unfold ContextEngine.pruneToolResultsOnly
  split
  · next h => exact hskip fun hasks => Bool.false_ne_true (hasks.tokens.symm.trans h)
  split
  · next h => exact hskip fun hasks => hasks.cooled h
  split
  · next h => exact hskip fun hasks => Bool.false_ne_true (hasks.free.symm.trans h)
  next htokens hcooled hfree =>
  rw [Bool.not_eq_true] at htokens hfree
  constructor
  · intro hpreserved hasks r hrun
    by_contra hunmanageable
    subst hrun
    obtain ⟨err, herror⟩ := preprocess_raises e hasks.old hunmanageable
    obtain ⟨_, _, hreturns⟩ := hpreserved.returns
    simp only [herror] at hreturns
    cases hreturns
  · intro h
    obtain ⟨⟨out, changed⟩, hout, hkept⟩ :=
      preprocess_returns e messages fun hold => h ⟨htokens, hcooled, hfree, hold⟩
    simp only [hout]
    refine ⟨hfree.symm, ⟨_, _, rfl⟩, fun hnot => ?_⟩
    cases hkept hnot
    rfl

/-- The program prints an empty list. -/
theorem list_reply_raises :
    let messages := [sampleMessage "tool" (pyStr "a"), sampleMessage "user" (pyStr "b")]
    ¬Preserved ⟨1, 0, 0, 0, false⟩ messages (printed (.arr []))
      ((⟨1, 0, 0, 0, false⟩ : ContextEngine).pruneToolResultsOnly ⟨9, 9⟩ messages none 0 0
        (printed (.arr []))) := by
  rintro messages ⟨-, ⟨out, changed, hreturns⟩, -⟩
  have herror : ((⟨1, 0, 0, 0, false⟩ : ContextEngine).pruneToolResultsOnly ⟨9, 9⟩ messages none 0 0
      (printed (.arr []))).2 = .error .attributeError := by
    rw [ContextEngine.pruneToolResultsOnly, if_neg (by decide), if_neg (by decide +kernel),
      if_neg (by decide)]
    rfl
  cases herror.symm.trans hreturns

/-! ## The envelope -/

structure CompressMessage where
  role : String
  content : PyValue
  extra : Message

def roleText : Option PyValue → String
  | some (.scalar (.str s)) => s
  | _ => ""

def compressionMessageFromMap (raw : Message) : CompressMessage where
  role := roleText (raw.lookup "role")
  content := Message.get raw "content"
  extra := raw.filter fun e => e.1 != "role" && e.1 != "content"

def compressionMessageToMap (m : CompressMessage) : Message :=
  set "content" m.content (set "role" (pyStr m.role) m.extra)

def envelope (m : Message) : Message := compressionMessageToMap (compressionMessageFromMap m)

/-- None of the values is a NaN, which JSON cannot spell and which is not equal to itself. -/
structure WireMessage where
  fields : Message
  spelled : ∀ key v, fields.lookup key = some v → pyEq v v = true

structure Complete (m : Message) : Prop where
  role : ∃ s, m.lookup "role" = some (pyStr s)
  content : (m.lookup "content").isSome = true

theorem lookup_extra (hrole : k ≠ "role") (hcontent : k ≠ "content") :
    (m.filter fun e => e.1 != "role" && e.1 != "content").lookup k = m.lookup k := by
  induction m with
  | nil => rfl
  | cons e m ih =>
    rw [filter_cons, lookup_cons]
    split
    · rw [lookup_cons, ih]
    next hdropped =>
    have hne : (k == e.1) = false := by
      rw [beq_eq_false_iff_ne]
      rintro rfl
      simp [hrole, hcontent] at hdropped
    rw [hne, ih]

theorem lookup_envelope (m : Message) (k : String) : (envelope m).lookup k =
      if k = "content" then some (Message.get m "content")
      else if k = "role" then some (pyStr (roleText (m.lookup "role")))
      else m.lookup k := by
  rw [envelope, compressionMessageToMap, lookup_set, lookup_set]
  split
  · rfl
  next hcontent =>
  split
  · rfl
  · next hrole => exact lookup_extra hrole hcontent

theorem lookup_envelope_eq_iff (m : Message) :
    (∀ k, (envelope m).lookup k = m.lookup k) ↔ Complete m := by
  constructor
  · intro h
    have hrole := h "role"
    have hcontent := h "content"
    rw [lookup_envelope] at hrole hcontent
    exact ⟨⟨_, hrole.symm⟩, by rw [← hcontent]; rfl⟩
  · rintro ⟨⟨s, hrole⟩, hcontent⟩ k
    obtain ⟨v, hv⟩ := Option.isSome_iff_exists.mp hcontent
    rw [lookup_envelope]
    split
    · next hk => rw [hk, Message.get, hv, Option.getD_some]
    split
    · next hk =>
      rw [hk, hrole]
      rfl
    · rfl

theorem WireMessage.get_self (m : WireMessage) (k : String) :
    pyEq (Message.get m.fields k) (Message.get m.fields k) = true := by
  unfold Message.get
  cases hv : m.fields.lookup k with
  | none => rfl
  | some v => exact m.spelled k v hv

theorem safeMessage_same (m : WireMessage) {after : Message}
    (h : ∀ k, after.lookup k = m.fields.lookup k) : safeMessage m.fields after = true := by
  have hget : ∀ k, pyEq (Message.get m.fields k) (Message.get after k) = true := by
    intro k
    rw [Message.get, Message.get, h]
    exact m.get_self k
  have hkeys : sameKeys m.fields after = true := by
    refine Bool.and_eq_true_iff.mpr ⟨all_eq_true.mpr fun e he => ?_, all_eq_true.mpr fun e he => ?_⟩
    · rw [h]
      exact lookup_isSome_of_mem he
    · rw [← h]
      exact lookup_isSome_of_mem he
  simp [safeMessage, otherValueDiffers, hkeys, hget]

theorem complete_of_safe (h : safeMessage m (envelope m) = true) : Complete m := by
  unfold safeMessage at h
  split at h
  · cases h
  next hkeys =>
  split at h
  · cases h
  next hrole =>
  rw [Bool.not_eq_true', Bool.not_eq_false] at hkeys hrole
  have hget : Message.get (envelope m) "role" = pyStr (roleText (m.lookup "role")) := by
    rw [Message.get, lookup_envelope]
    rfl
  rw [hget] at hrole
  refine ⟨⟨_, Message.get_str hrole⟩, ?_⟩
  exact all_eq_true.mp (Bool.and_eq_true_iff.mp hkeys).2 _ mem_cons_self

theorem safeMessages_isSome_iff {α : Type} (f g : α → Message) (l : List α) :
    (safeMessages (l.map f) (l.map fun x => .obj (g x))).isSome = true ↔
      ∀ x ∈ l, safeMessage (f x) (g x) = true := by
  induction l with
  | nil => simp [safeMessages]
  | cons x l ih =>
    rw [map_cons, map_cons, safeMessages, forall_mem_cons, ← ih]
    split
    · next hsafe => simp [hsafe]
    · next hsafe => simp [hsafe]

/-- An envelope has what its message has exactly if the message is complete, and the envelopes of a
history are accepted exactly if all of it is. -/
theorem envelope_transparent_iff (m : Message) (history : List WireMessage) :
    ((∀ k, (envelope m).lookup k = m.lookup k) ↔ Complete m) ∧
      ((safeBridgeMessages (history.map (·.fields))
        (.arr (history.map fun m => .obj (envelope m.fields)))).isSome = true ↔
        ∀ m ∈ history, Complete m.fields) := by
  refine ⟨lookup_envelope_eq_iff m, ?_⟩
  rw [safeBridgeMessages, if_neg (by simp), safeMessages_isSome_iff]
  refine forall₂_congr fun m _ => ⟨complete_of_safe, fun hcomplete => ?_⟩
  exact safeMessage_same m ((lookup_envelope_eq_iff m.fields).mpr hcomplete)

/-- An assistant message that has tool calls and no content. -/
theorem missing_content_rejected :
    let m : Message := [("role", pyStr "assistant"), ("tool_calls", .arr [])]
    (envelope m).lookup "content" ≠ m.lookup "content" ∧
      (safeBridgeMessages [m] (.arr [.obj (envelope m)])).isSome = false := by
  refine ⟨fun h => ?_, rfl⟩
  cases h

end CalvoProxy.Bridge
