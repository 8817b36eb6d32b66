import CalvoProxy.Router.Returns

/-!
# One response for each request

The log of a request holds exactly one response, and no position of the chain is attempted after it
(`AnsweredBy`): an attempt writes the head of a response exactly when it returns no error, and a
JSON error is written only when none did.
-/

namespace CalvoProxy

open List Effect

variable {es' es : List Effect} {e e' : Effect} {x : Script} {attempt : ModelAttempt}
  {reserveFallback : Option ReserveFallback} {err : Option AttemptError} {w1 w w' : World}
  {execution : FallbackExecution} {r : Request} {cfg : Settings}

/-! ## Responses in a log -/

def Silent (es : List Effect) : Prop := ∀ e ∈ es, e.isResponse = false

def Unattempted (es : List Effect) : Prop := ∀ e ∈ es, ∀ i, e ≠ .attempt i

/-- The effects hold one response, `e`, and no position is attempted after it. -/
def AnsweredBy (e : Effect) (es : List Effect) : Prop :=
  e.isResponse = true ∧ ∃ pre post, es = pre ++ e :: post ∧ Silent pre ∧ Silent post ∧ Unattempted post

theorem Silent.append (h : Silent es) (h' : Silent es') :
    Silent (es ++ es') := fun e he => (mem_append.mp he).elim (h e) (h' e)

theorem Unattempted.append (h : Unattempted es) (h' : Unattempted es') :
    Unattempted (es ++ es') := fun e he => (mem_append.mp he).elim (h e) (h' e)

theorem silent_singleton (h : e.isResponse = false) : Silent [e] := by
  intro e' he'
  rw [mem_singleton.mp he']
  exact h

theorem silent_iff_filter : Silent es ↔ es.filter isResponse = [] := by
  rw [filter_eq_nil_iff]
  exact forall₂_congr fun e _ => Bool.eq_false_iff

theorem silent_ledger (es : List QuotaLedger.LedgerEvent) : Silent (es.map ledger) := by
  intro e he
  obtain ⟨_, -, rfl⟩ := mem_map.mp he
  rfl

theorem unattempted_ledger (es : List QuotaLedger.LedgerEvent) : Unattempted (es.map ledger) := by
  intro e he i
  obtain ⟨_, -, rfl⟩ := mem_map.mp he
  exact nofun

namespace AnsweredBy

theorem singleton (h : e.isResponse = true) : AnsweredBy e [e] :=
  ⟨h, [], [], rfl, fun _ h => (nomatch h), fun _ h => (nomatch h), fun _ h => (nomatch h)⟩

theorem afterSilent (hsilent : Silent es) (h : AnsweredBy e es') : AnsweredBy e (es ++ es') := by
  obtain ⟨hresponse, pre, post, rfl, hpre, hpost⟩ := h
  exact ⟨hresponse, es ++ pre, post, (append_assoc _ _ _).symm, hsilent.append hpre, hpost⟩

variable (h : AnsweredBy e es)
include h

theorem thenUnattempted (hsilent : Silent es') (hunattempted : Unattempted es') :
    AnsweredBy e (es ++ es') := by
  obtain ⟨hresponse, pre, post, rfl, hpre, hpost, hquiet⟩ := h
  refine ⟨hresponse, pre, post ++ es', ?_, hpre, hpost.append hsilent, hquiet.append hunattempted⟩
  rw [append_assoc, cons_append]

theorem eq_of_mem (hmem : e' ∈ es) (hresponse : e'.isResponse = true) : e' = e := by
  obtain ⟨-, pre, post, rfl, hpre, hpost, -⟩ := h
  rcases mem_append.mp hmem with hin | hin
  · exact nomatch (hpre e' hin).symm.trans hresponse
  · rcases mem_cons.mp hin with heq | hin
    · exact heq
    · exact nomatch (hpost e' hin).symm.trans hresponse

theorem mem : e ∈ es := by
  obtain ⟨-, pre, post, rfl, -⟩ := h
  exact mem_append_right pre mem_cons_self

theorem count : es.countP isResponse = 1 := by
  obtain ⟨hresponse, pre, post, rfl, hpre, hpost, -⟩ := h
  have hzero : ∀ es : List Effect, Silent es → es.countP isResponse = 0 :=
    fun es hs => countP_eq_zero.mpr fun e he => Bool.eq_false_iff.mp (hs e he)
  rw [countP_append, countP_cons_of_pos hresponse, hzero pre hpre, hzero post hpost]

theorem unattempted_after {before after : List Effect}
    (hsplit : es = before ++ e' :: after) (hresponse : e'.isResponse = true) :
    Unattempted after := by
  obtain ⟨-, pre, post, heq, hpre, hpost, hunattempted⟩ := h
  rw [hsplit] at heq
  rcases append_eq_append_iff.mp heq with ⟨mid, hmid, hrest⟩ | ⟨mid, hmid, hrest⟩
  · cases mid with
    | nil => cases hrest; exact hunattempted
    | cons a mid =>
      cases hrest
      have hin : e' ∈ pre := hmid ▸ mem_append_right before mem_cons_self
      exact nomatch (hpre e' hin).symm.trans hresponse
  · cases mid with
    | nil => cases hrest; exact hunattempted
    | cons a mid =>
      cases hrest
      exact nomatch (hpost e' (mem_append_right mid mem_cons_self)).symm.trans hresponse

end AnsweredBy

theorem executeAttempt_responses (hcallback : ChainCallback cfg reserveFallback)
    (h : executeAttempt cfg x reserveFallback attempt w = some (w', err)) :
    (err.isSome = true ∧ w'.responses = w.responses) ∨
      err = none ∧ ∃ status, w'.responses = w.responses ++ [.head status] := by
  rcases executeAttempt_cases hcallback.harmless h with
    ⟨hnot, message, rfl⟩ | ⟨w1, l, sent, head, o, hadmitted, hends, rfl⟩
  · exact .inl ⟨rfl, hnot.responses⟩
  have hstart : w1.responses = w.responses := by
    unfold World.responses
    rw [hadmitted.log]
  have hresponses := hends.responses
  have hanswered := hends.answered
  rw [hstart] at hresponses
  cases head with
  | none =>
    refine .inl ⟨?_, hresponses.trans (append_nil _)⟩
    cases err with
    | none => cases hanswered
    | some e => rfl
  | some status =>
    refine .inr ⟨?_, status, hresponses⟩
    cases err with
    | none => rfl
    | some e => cases hanswered

theorem executeAttempt_log (hcallback : ChainCallback cfg reserveFallback)
    (h : executeAttempt cfg x reserveFallback attempt w = some (w', err)) :
    ∃ es, w'.log = w.log ++ es ∧ ((err.isSome = true ∧ Silent es) ∨
      err = none ∧ ∃ status, AnsweredBy (.head status) es) := by
  obtain ⟨es, hlog, hunattempted⟩ := (executeAttempt_steps hcallback.drawsOne h).continues
  have hfilter : w'.responses = w.responses ++ es.filter isResponse := by
    unfold World.responses
    rw [hlog, filter_append]
  refine ⟨es, hlog, ?_⟩
  rcases executeAttempt_responses hcallback h with ⟨herr, hnone⟩ | ⟨herr, status, hhead⟩
  · rw [hnone] at hfilter
    exact .inl ⟨herr, silent_iff_filter.mpr (self_eq_append_right.mp hfilter)⟩
  · rw [hhead, append_cancel_left_eq] at hfilter
    obtain ⟨pre, post, rfl, hpre, -, hpost⟩ := filter_eq_cons_iff.mp hfilter.symm
    refine .inr ⟨herr, status, rfl, pre, post, rfl, fun e he => Bool.eq_false_iff.mpr (hpre e he),
      silent_iff_filter.mpr hpost, fun e he => hunattempted e ?_⟩
    exact mem_append_right pre (mem_cons_of_mem _ he)

/-- What a chain has written: nothing, or one head. -/
def Writes (served : Prop) (w w' : World) : Prop :=
  ∃ es, w'.log = w.log ++ es ∧
    ((¬served ∧ Silent es) ∨ served ∧ ∃ status, AnsweredBy (.head status) es)

theorem Writes.afterSilent {served : Prop} (hlog : w1.log = w.log ++ es)
    (hsilent : Silent es) (h : Writes served w1 w') :
    Writes served w w' := by
  obtain ⟨es', hlog', hcases⟩ := h
  refine ⟨es ++ es', by rw [hlog', hlog, append_assoc], ?_⟩
  rcases hcases with ⟨hnot, hsilent'⟩ | ⟨hserved, status, hanswered⟩
  · exact .inl ⟨hnot, hsilent.append hsilent'⟩
  · exact .inr ⟨hserved, status, hanswered.afterSilent hsilent⟩

theorem Writes.thenCalls {served : Prop} {es : List QuotaLedger.LedgerEvent}
    (h : Writes served w w1) (hcalls : QuotaRun w1 w' es) : Writes served w w' := by
  obtain ⟨es', hlog', hcases⟩ := h
  refine ⟨es' ++ es.map ledger, by rw [hcalls.log, hlog', append_assoc], ?_⟩
  rcases hcases with ⟨hnot, hsilent⟩ | ⟨hserved, status, hanswered⟩
  · exact .inl ⟨hnot, hsilent.append (silent_ledger es)⟩
  · exact .inr ⟨hserved, status,
      hanswered.thenUnattempted (silent_ledger es) (unattempted_ledger es)⟩

section Chain

variable {x : ChainScript} {i : Nat} {s : ChainState}

theorem Starts.log {e : Started} {err : Option AttemptError} (he : Starts cfg x execution s i e)
    (h : e.result = some (w', err)) : ∃ es, w'.log = s.world.log ++ es ∧
      ((err.isSome = true ∧ Silent es) ∨ err = none ∧ ∃ status, AnsweredBy (.head status) es) := by
  have hcallback := he.callback
  obtain ⟨planned, -, -, rfl⟩ := he
  obtain ⟨es, hlog, hcases⟩ := executeAttempt_log hcallback h
  refine ⟨.attempt i :: es, by rw [hlog]; exact append_assoc _ _ _, ?_⟩
  rcases hcases with ⟨herr, hsilent⟩ | ⟨herr, status, hanswered⟩
  · exact .inl ⟨herr, (silent_singleton rfl).append hsilent⟩
  · exact .inr ⟨herr, status, hanswered.afterSilent (silent_singleton rfl)⟩

theorem ChainRun.writes {n : Nat} {s' : ChainState} {last : ChainEnd} {es : List Started}
    (h : ChainRun cfg x execution n i s es (some (s', last))) :
    Writes (last = .served) s.world s'.world := by
  have hnothing : ∀ w : World, ∀ last ≠ ChainEnd.served, Writes (last = .served) w w :=
    fun w last hlast => ⟨[], (append_nil _).symm, .inl ⟨hlast, fun _ h => absurd h not_mem_nil⟩⟩
  generalize hr : some (s', last) = r at h
  induction h with
  | ended =>
    cases hr
    exact hnothing _ .ran (by simp)
  | skipped _ _ _ ih => exact ih hr
  | stuck => cases hr
  | served he hresult =>
    cases hr
    obtain ⟨es, hlog, ⟨herr, -⟩ | ⟨-, hanswered⟩⟩ := he.log hresult
    · cases herr
    · exact ⟨es, hlog, .inr ⟨rfl, hanswered⟩⟩
  | failed he hresult hlearn _ ih =>
    obtain ⟨es, hlog, ⟨-, hsilent⟩ | ⟨hnone, -⟩⟩ := he.log hresult
    · have hrest := ih hr
      rw [ChainState.learn_world hlearn] at hrest
      exact hrest.afterSilent hlog hsilent
    · cases hnone
  | stopped he hresult hlearn =>
    cases hr
    obtain ⟨es, hlog, ⟨-, hsilent⟩ | ⟨hnone, -⟩⟩ := he.log hresult
    · rw [ChainState.learn_world hlearn]
      exact (hnothing _ _ (by simp)).afterSilent hlog hsilent
    · cases hnone

end Chain

theorem releaseAttempts_calls (ticks : Nat → Tick) (attempts : List (ModelAttempt × Nat))
    (w : World) : ∃ es, QuotaRun w (releaseAttempts ticks attempts w) es := by
  induction attempts generalizing w with
  | nil => exact ⟨[], .refl w⟩
  | cons c rest ih =>
    obtain ⟨attempt, i⟩ := c
    unfold releaseAttempts
    split
    · obtain ⟨es, hrun⟩ := ih (w.release attempt.quotaTicket (ticks i))
      exact ⟨_, (QuotaRun.release w attempt.quotaTicket (ticks i)).trans hrun⟩
    · exact ih w

theorem executeFallbacks_writes {x : ChainScript} {err : Option ChainError}
    (h : executeFallbacks cfg x execution w = some (w', err)) : Writes (err = none) w w' := by
  unfold executeFallbacks at h
  split at h
  · cases h
  next s last hloop =>
  obtain ⟨es, hcalls⟩ := releaseAttempts_calls x.release s.world.attempts.zipIdx s.world
  have hrun := chainLoop_run cfg x execution w.attempts.length 0 ⟨w, ⟨[], []⟩, none, []⟩
  rw [hloop] at hrun
  have hwrites := hrun.writes.thenCalls hcalls
  have hresult : w' = releaseAttempts x.release s.world.attempts.zipIdx s.world ∧
      (last = .served ↔ err = none) := by
    cases last with
    | served | ran => cases h; exact ⟨rfl, by simp⟩
    | stopped early => cases early <;> cases h <;> exact ⟨rfl, by simp⟩
  rw [hresult.1, ← propext hresult.2]
  exact hwrites

def Answers (w w' : World) : Prop := ∃ es e, w'.log = w.log ++ es ∧ AnsweredBy e es

namespace Answers

variable {es : List QuotaLedger.LedgerEvent}

theorem afterCalls (hcalls : QuotaRun w w1 es) (h : Answers w1 w') : Answers w w' := by
  obtain ⟨es', e, hlog, hanswered⟩ := h
  exact ⟨es.map ledger ++ es', e, by rw [hlog, hcalls.log, append_assoc],
    hanswered.afterSilent (silent_ledger es)⟩

theorem thenCalls (h : Answers w w1) (hcalls : QuotaRun w1 w' es) : Answers w w' := by
  obtain ⟨es', e, hlog, hanswered⟩ := h
  exact ⟨es' ++ es.map ledger, e, by rw [hcalls.log, hlog, append_assoc],
    hanswered.thenUnattempted (silent_ledger es) (unattempted_ledger es)⟩

theorem jsonError (w : World) (status : Int) (message : String) (retryAfter : Option Int) :
    Answers w (w.emit (.jsonError status message retryAfter)) :=
  ⟨_, _, rfl, .singleton rfl⟩

end Answers

theorem runChain_answers {first : ModelAttempt}
    {rest : List ModelAttempt} (h : runChain cfg r first rest w = some w') :
    Answers w w' := by
  obtain ⟨w1, err, w2, hexecute, hclosing, rfl⟩ := runChain_cases h
  obtain ⟨es, hlog, hcases⟩ := executeFallbacks_writes hexecute
  have hanswered : Answers w w2 := by
    cases hclosing with
    | served =>
      rcases hcases with ⟨hnot, -⟩ | ⟨-, status, hanswered⟩
      · exact absurd rfl hnot
      · exact ⟨es, .head status, hlog, hanswered⟩
    | failed e status message retryAfter =>
      rcases hcases with ⟨-, hsilent⟩ | ⟨hnone, -⟩
      · refine ⟨es ++ [.jsonError status message retryAfter], _, ?_,
          (AnsweredBy.singleton rfl).afterSilent hsilent⟩
        rw [← append_assoc]
        exact congrArg (· ++ _) hlog
      · cases hnone
  split
  · exact hanswered.thenCalls (.release w2 first.quotaTicket r.release)
  · exact hanswered

theorem dispatchChain_answers (h : dispatchChain cfg r w = some w') : Answers w w' := by
  rcases dispatchChain_cases h with hanswered | ⟨w1, first, rest, hready, hrun⟩
  · obtain ⟨hread, status, message, retryAfter⟩ := hanswered
    obtain ⟨es, hcalls, -⟩ := hread.calls
    exact (Answers.jsonError _ status message retryAfter).afterCalls hcalls
  · obtain ⟨es, e, hcalls, -⟩ := hready.reserves.calls
    exact (runChain_answers hrun).afterCalls hcalls

/-- There is one response, no position is attempted after a head, and there is a JSON error exactly
if there is no head. -/
structure OneResponse (es : List Effect) : Prop where
  once : es.countP isResponse = 1
  last : ∀ before status after, es = before ++ .head status :: after → ∀ i, .attempt i ∉ after
  error : (∃ status message retryAfter, jsonError status message retryAfter ∈ es) ↔
    ∀ status, Effect.head status ∉ es

theorem AnsweredBy.oneResponse (h : AnsweredBy e es) : OneResponse es where
  once := h.count
  last := fun before status after hsplit i hin =>
    h.unattempted_after hsplit rfl _ hin i rfl
  error := by
    constructor
    · rintro ⟨status, message, retryAfter, hjson⟩ headStatus hhead
      exact nomatch (h.eq_of_mem hjson rfl).trans (h.eq_of_mem hhead rfl).symm
    · intro hnone
      have hmem := h.mem
      have hresponse := h.1
      cases e with
      | head status => exact absurd hmem (hnone status)
      | jsonError status message retryAfter => exact ⟨status, message, retryAfter, hmem⟩
      | attempt | ledger | breaker | send => cases hresponse

/-- A request gets one response, an attempt that fails has written none, and with room for its
tickets the dispatch returns. -/
theorem dispatchChain_answers_once (cfg : Settings) (r : Request) (w : World) :
    (∀ w', dispatchChain cfg r w = some w' → ∃ es, w'.log = w.log ++ es ∧ OneResponse es) ∧
      (∀ x reserveFallback attempt w0 w1 err, ChainCallback cfg reserveFallback →
        executeAttempt cfg x reserveFallback attempt w0 = some (w1, some err) →
          w1.responses = w0.responses) ∧
      (Room (1 + 2 * (r.size * r.size)) w → ∃ w', dispatchChain cfg r w = some w') := by
  refine ⟨fun w' h => ?_, fun x reserveFallback attempt w0 w1 err hcallback h => ?_,
    dispatchChain_returns⟩
  · obtain ⟨es, e, hlog, hanswered⟩ := dispatchChain_answers h
    exact ⟨es, hlog, hanswered.oneResponse⟩
  · rcases executeAttempt_responses hcallback h with ⟨-, hnothing⟩ | ⟨hnone, -⟩
    · exact hnothing
    · cases hnone

/-- Both models fail: the one response is a JSON error. -/
theorem two_failures_answered_once : ∃ w',
    dispatchChain demoSettings (demoRequest connectionReset) demoWorld = some w' ∧
      OneResponse w'.log := by
  obtain ⟨honce, -, hreturns⟩ :=
    dispatchChain_answers_once demoSettings (demoRequest connectionReset) demoWorld
  obtain ⟨w', hdispatch⟩ := hreturns (by unfold Room; decide)
  obtain ⟨es, hlog, hone⟩ := honce w' hdispatch
  have hlog : w'.log = es := hlog
  exact ⟨w', hdispatch, hlog ▸ hone⟩

end CalvoProxy
