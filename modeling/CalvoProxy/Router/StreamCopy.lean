import CalvoProxy.Router.Stream

/-!
# The bytes of a stream

`streamCopy` with its bytes: the goroutine that reads, the loop that selects, and writes that may
take a part of a chunk and fail, in any order. The client has a prefix of the body at every moment,
and all of it if the stream is completed (`streamCopy_faithful`).
-/

namespace CalvoProxy

open List Machine

variable {max : Bool} {body : Body} {s : CopyState}

/-- What the reads of a body return; the last one also returns the end. -/
structure Body where
  reads : List Octets
  lastRead : Octets
  eof : Bool

def Body.bytes (body : Body) : Octets := body.reads.flatten ++ body.lastRead

inductive BodyReader
  | reading (reads : List Octets)
  | offering (data : Octets) (reads : List Octets)
  | offeringLast
  | failing
  | finished

/-- At the select, at the nested one after the idle timer, in a write with these bytes left, or at
the end. -/
inductive CopyPoint
  | selecting
  | idled
  | writing (nested : Bool) (left : Octets)
  | returned (outcome : StreamOutcome)

/-- `idleFired` and `maxFired` say that the channel of the timer has a value. -/
structure CopyState where
  reader : BodyReader
  point : CopyPoint
  written : Octets
  idleFired : Bool
  maxFired : Bool
  context : Option ContextError
  selects : List Select

/-- A read returns, a timer fires, the context ends, the select takes a case, or the write goes
on. -/
inductive CopyEvent
  | readReturns
  | idleFires
  | maxFires
  | contextEnds (err : ContextError)
  | takeChunk
  | takeIdle
  | takeDefault
  | takeMax
  | takeContext
  | accept (n : Nat)
  | writeReturns
  | writeFails
deriving DecidableEq

namespace BodyReader

def ready : BodyReader → Bool
  | .offering _ _ => true
  | .offeringLast => true
  | .failing => true
  | _ => false

def readReturns (body : Body) : BodyReader → Option BodyReader
  | .reading ([] :: reads) => some (.reading reads)
  | .reading (data :: reads) => some (.offering data reads)
  | .reading [] => some (if body.lastRead.isEmpty then .failing else .offeringLast)
  | _ => none

end BodyReader

def received (nested : Bool) (c : Chunk) : Select := if nested then .idle (some c) else .chunk c

def endOutcome (eof : Bool) (context : Option ContextError) : StreamOutcome :=
  if eof then .completed
  else if context.isSome then .clientGone
  else .upstreamError

namespace CopyState

variable (body : Body)

def finish (s : CopyState) (select : Select) (outcome : StreamOutcome) : CopyState :=
  { s with point := .returned outcome, selects := s.selects ++ [select] }

def receive (nested : Bool) (s : CopyState) : Option CopyState :=
  match s.reader with
  | .offering data reads => some { s with reader := .reading reads, point := .writing nested data }
  | .offeringLast => some { s with reader := .failing, point := .writing nested body.lastRead }
  | .failing =>
    some ({ s with reader := .finished }.finish (received nested (.failed body.eof s.context))
      (endOutcome body.eof s.context))
  | _ => none

/-- One step. `max` says whether the lifetime is bounded. -/
def next (max : Bool) (s : CopyState) : CopyEvent → Option CopyState
  | .readReturns => (s.reader.readReturns body).map fun reader => { s with reader := reader }
  | .idleFires => some { s with idleFired := true }
  | .maxFires => if max then some { s with maxFired := true } else none
  | .contextEnds err => some { s with context := some (s.context.getD err) }
  | .takeChunk =>
    match s.point with
    | .selecting => s.receive body false
    | .idled => s.receive body true
    | _ => none
  | .takeIdle =>
    match s.point, s.idleFired with
    | .selecting, true => some { s with point := .idled, idleFired := false }
    | _, _ => none
  | .takeDefault =>
    match s.point, s.reader.ready with
    | .idled, false => some (s.finish (.idle none) .stalled)
    | _, _ => none
  | .takeMax =>
    match s.point, s.maxFired with
    | .selecting, true => some (s.finish .maxDuration .maxReached)
    | _, _ => none
  | .takeContext =>
    match s.point, s.context.isSome with
    | .selecting, true => some (s.finish .contextDone .clientGone)
    | _, _ => none
  | .accept n =>
    match s.point with
    | .writing nested left =>
      some { s with written := s.written ++ left.take n, point := .writing nested (left.drop n) }
    | _ => none
  | .writeReturns =>
    match s.point with
    -- the timer is stopped and started anew
    | .writing nested [] =>
      some { s with
        point := .selecting
        idleFired := false
        selects := s.selects ++ [received nested (.data true)] }
    | _ => none
  | .writeFails =>
    match s.point with
    | .writing nested _ => some (s.finish (received nested (.data false)) .clientGone)
    | _ => none

def step (max : Bool) (s : CopyState) (e : CopyEvent) : Option (CopyState × Unit) :=
  (s.next body max e).map fun s => (s, ())

def start : CopyState := ⟨.reading body.reads, .selecting, [], false, false, none, []⟩

end CopyState

/-! ## What is left of the body -/

namespace BodyReader

def left (body : Body) : BodyReader → Octets
  | .reading reads => reads.flatten ++ body.lastRead
  | .offering data reads => data ++ (reads.flatten ++ body.lastRead)
  | .offeringLast => body.lastRead
  | .failing => []
  | .finished => []

theorem readReturns_left {r r' : BodyReader} (h : r.readReturns body = some r') :
    r'.left body = r.left body := by
  cases r with
  | reading reads =>
    cases reads with
    | nil =>
      simp only [readReturns, Option.some.injEq] at h
      subst h
      split
      · next hempty => simp [left, isEmpty_iff.mp hempty]
      · simp [left]
    | cons data reads =>
      cases data with
      | nil =>
        cases h
        rfl
      | cons b data =>
        cases h
        simp [left]
  | _ => cases h

end BodyReader

def selectPoint (nested : Bool) : CopyPoint := if nested then .idled else .selecting

inductive CopyStep (body : Body) (max : Bool) (s : CopyState) : CopyEvent → CopyState → Prop
  | read {reader : BodyReader} (h : s.reader.readReturns body = some reader) :
      CopyStep body max s .readReturns { s with reader := reader }
  | idleFired : CopyStep body max s .idleFires { s with idleFired := true }
  | maxFired (h : max = true) : CopyStep body max s .maxFires { s with maxFired := true }
  | contextEnded (err : ContextError) :
      CopyStep body max s (.contextEnds err) { s with context := some (s.context.getD err) }
  | data {nested : Bool} {data : Octets} {reads : List Octets} (hpoint : s.point = selectPoint nested)
      (hreader : s.reader = .offering data reads) :
      CopyStep body max s .takeChunk
        { s with reader := .reading reads, point := .writing nested data }
  | lastData {nested : Bool} (hpoint : s.point = selectPoint nested)
      (hreader : s.reader = .offeringLast) :
      CopyStep body max s .takeChunk
        { s with reader := .failing, point := .writing nested body.lastRead }
  | bodyEnded {nested : Bool} (hpoint : s.point = selectPoint nested)
      (hreader : s.reader = .failing) :
      CopyStep body max s .takeChunk
        ({ s with reader := .finished }.finish (received nested (.failed body.eof s.context))
          (endOutcome body.eof s.context))
  | idled (hpoint : s.point = .selecting) (hfired : s.idleFired = true) :
      CopyStep body max s .takeIdle { s with point := .idled, idleFired := false }
  | stalled (hpoint : s.point = .idled) (hreader : s.reader.ready = false) :
      CopyStep body max s .takeDefault (s.finish (.idle none) .stalled)
  | maxReached (hpoint : s.point = .selecting) (hfired : s.maxFired = true) :
      CopyStep body max s .takeMax (s.finish .maxDuration .maxReached)
  | cancelled (hpoint : s.point = .selecting) (hcontext : s.context.isSome = true) :
      CopyStep body max s .takeContext (s.finish .contextDone .clientGone)
  | accepted {nested : Bool} {left : Octets} (n : Nat) (hpoint : s.point = .writing nested left) :
      CopyStep body max s (.accept n)
        { s with written := s.written ++ left.take n, point := .writing nested (left.drop n) }
  | wrote {nested : Bool} (hpoint : s.point = .writing nested []) :
      CopyStep body max s .writeReturns { s with
          point := .selecting
          idleFired := false
          selects := s.selects ++ [received nested (.data true)] }
  | writeFailed {nested : Bool} {left : Octets} (hpoint : s.point = .writing nested left) :
      CopyStep body max s .writeFails (s.finish (received nested (.data false)) .clientGone)

theorem CopyState.receive_cases {body : Body} {max nested : Bool} {s s' : CopyState}
    (hpoint : s.point = selectPoint nested) (h : s.receive body nested = some s') :
    CopyStep body max s .takeChunk s' := by
  unfold receive at h
  split at h
  · next hreader =>
    cases h
    exact .data hpoint hreader
  · next hreader =>
    cases h
    exact .lastData hpoint hreader
  · next hreader =>
    cases h
    exact .bodyEnded hpoint hreader
  · cases h

theorem CopyState.next_cases {s' : CopyState} {e : CopyEvent}
    (h : s.next body max e = some s') : CopyStep body max s e s' := by
  cases e with
  | readReturns =>
    obtain ⟨reader, hreader, rfl⟩ := Option.map_eq_some_iff.mp h
    exact .read hreader
  | idleFires =>
    cases h
    exact .idleFired
  | maxFires =>
    simp only [next] at h
    split at h
    · next hmax =>
      cases h
      exact .maxFired hmax
    · cases h
  | contextEnds err =>
    cases h
    exact .contextEnded err
  | takeChunk =>
    simp only [next] at h
    split at h
    · next hpoint => exact @receive_cases body max false s s' hpoint h
    · next hpoint => exact @receive_cases body max true s s' hpoint h
    · cases h
  | takeIdle =>
    simp only [next] at h
    split at h
    · next hpoint hfired =>
      cases h
      exact .idled hpoint hfired
    · cases h
  | takeDefault =>
    simp only [next] at h
    split at h
    · next hpoint hready =>
      cases h
      exact .stalled hpoint hready
    · cases h
  | takeMax =>
    simp only [next] at h
    split at h
    · next hpoint hfired =>
      cases h
      exact .maxReached hpoint hfired
    · cases h
  | takeContext =>
    simp only [next] at h
    split at h
    · next hpoint hcontext =>
      cases h
      exact .cancelled hpoint hcontext
    · cases h
  | accept n =>
    simp only [next] at h
    split at h
    · next hpoint =>
      cases h
      exact .accepted n hpoint
    · cases h
  | writeReturns =>
    simp only [next] at h
    split at h
    · next hpoint =>
      cases h
      exact .wrote hpoint
    · cases h
  | writeFails =>
    simp only [next] at h
    split at h
    · next hpoint =>
      cases h
      exact .writeFailed hpoint
    · cases h

theorem CopyState.step_cases {s' : CopyState} {e : CopyEvent}
    {u : Unit} (h : s.step body max e = some (s', u)) : CopyStep body max s e s' := by
  obtain ⟨s1, hnext, heq⟩ := Option.map_eq_some_iff.mp h
  cases heq
  exact next_cases hnext

/-! ## Nothing is lost -/

/-- While the loop runs, what is written, in the write and still to be handed over make up the
body. -/
def CopyPoint.Keeps (bytes written left : Octets) : CopyPoint → Prop
  | .selecting | .idled => written ++ left = bytes
  | .writing _ data => written ++ (data ++ left) = bytes
  | .returned outcome => written <+: bytes ∧ (outcome = .completed → written = bytes)

def CopyState.Keeps (body : Body) (s : CopyState) : Prop :=
  s.point.Keeps body.bytes s.written (s.reader.left body)

theorem CopyPoint.keeps_select {nested : Bool} {bytes written left : Octets} :
    (selectPoint nested).Keeps bytes written left ↔ written ++ left = bytes := by
  cases nested <;> rfl

namespace CopyState.Keeps

variable (h : s.Keeps body)
include h

theorem written_le : s.written <+: body.bytes := by
  unfold CopyState.Keeps at h
  generalize s.point = point at h
  cases point with
  | selecting | idled | writing => exact ⟨_, h⟩
  | returned => exact h.1

theorem completed (hpoint : s.point = .returned .completed) : s.written = body.bytes := by
  rw [CopyState.Keeps, hpoint] at h
  exact h.2 rfl

theorem step {s' : CopyState} {max : Bool} {e : CopyEvent}
    (hstep : CopyStep body max s e s') : s'.Keeps body := by
  have hwritten := h.written_le
  unfold CopyState.Keeps at h ⊢
  cases hstep with
  | read hreader => rwa [BodyReader.readReturns_left hreader]
  | idleFired | maxFired | contextEnded => exact h
  | data hpoint hreader =>
    rw [hpoint, hreader] at h
    exact CopyPoint.keeps_select.mp h
  | lastData hpoint hreader =>
    rw [hpoint, hreader, CopyPoint.keeps_select] at h
    simpa [CopyPoint.Keeps, BodyReader.left] using h
  | bodyEnded hpoint hreader =>
    rw [hpoint, hreader, CopyPoint.keeps_select, BodyReader.left, append_nil] at h
    exact ⟨hwritten, fun _ => h⟩
  | idled hpoint | wrote hpoint =>
    rw [hpoint] at h
    exact h
  | stalled | maxReached | cancelled | writeFailed => exact ⟨hwritten, fun hs => by cases hs⟩
  | accepted n hpoint =>
    rw [hpoint] at h
    rw [← h, CopyPoint.Keeps, append_assoc, ← append_assoc (take n _), take_append_drop]

end CopyState.Keeps

theorem copied_keeps (h : Reachable (CopyState.step body max) (CopyState.start body) s) :
    s.Keeps body := by
  have hstart : (CopyState.start body).Keeps body := rfl
  exact h.invariant (fun _ _ _ _ hkeeps hstep => hkeeps.step (CopyState.step_cases hstep)) hstart

/-! ## The selects of a run -/

/-- No select has ended the stream, or the last one with this outcome. -/
def CopyPoint.Records (selects : List Select) : CopyPoint → Prop
  | .returned outcome => ∃ rounds last, selects = rounds ++ [last] ∧
      (∀ round ∈ rounds, round.ends = none) ∧ last.ends = some outcome
  | _ => ∀ round ∈ selects, round.ends = none

theorem CopyStep.records {s' : CopyState} {e : CopyEvent} (h : s.point.Records s.selects)
    (hstep : CopyStep body max s e s') : s'.point.Records s'.selects := by
  cases hstep with
  | read | idleFired | maxFired | contextEnded => exact h
  | @data nested _ _ hpoint | @lastData nested hpoint =>
    rw [hpoint] at h
    cases nested <;> exact h
  | @bodyEnded nested hpoint =>
    rw [hpoint] at h
    refine ⟨_, _, rfl, by cases nested <;> exact h, ?_⟩
    show (received nested (.failed body.eof s.context)).ends = some (endOutcome body.eof s.context)
    cases nested <;> cases body.eof <;> cases s.context <;> rfl
  | idled hpoint | accepted _ hpoint =>
    rw [hpoint] at h
    exact h
  | stalled hpoint | maxReached hpoint | cancelled hpoint =>
    rw [hpoint] at h
    exact ⟨_, _, rfl, h, rfl⟩
  | @wrote nested hpoint =>
    rw [hpoint] at h
    refine forall_mem_append.mpr ⟨h, fun round hround => ?_⟩
    rw [mem_singleton.mp hround]
    cases nested <;> rfl
  | @writeFailed nested _ hpoint =>
    rw [hpoint] at h
    exact ⟨_, _, rfl, h, by cases nested <;> rfl⟩

/-- The stream ends as `streamCopy` says of the selects that were taken. -/
theorem copied_selects (h : Reachable (CopyState.step body max) (CopyState.start body) s)
    {outcome : StreamOutcome} (hpoint : s.point = .returned outcome) :
    ∃ run : StreamRun, s.selects = run.rounds ++ [run.last] ∧ streamCopy run = outcome := by
  have hrecords : s.point.Records s.selects :=
    h.invariant (P := fun s => s.point.Records s.selects)
      (fun _ _ _ _ hs hstep => (CopyState.step_cases hstep).records hs) fun _ hround => by cases hround
  rw [hpoint] at hrecords
  obtain ⟨rounds, last, hselects, hnone, hlast⟩ := hrecords
  refine ⟨⟨rounds, last, by rw [hlast]; rfl⟩, hselects, ?_⟩
  rw [streamCopy, streamLoop_of_none hnone]
  exact Option.get_of_eq_some _ hlast

/-! ## Whose fault it is -/

abbrev CopyTrace := List (Event CopyState CopyEvent Unit)

/-- The idle timer has fired with no chunk ready. -/
def Stalled (tr : CopyTrace) : Prop :=
  (∃ e ∈ tr, e.input = .takeIdle ∧ e.before.idleFired = true) ∧
    ∃ e ∈ tr, e.input = .takeDefault ∧ e.before.point = .idled ∧ e.before.reader.ready = false

def ReadFailed (body : Body) (tr : CopyTrace) : Prop :=
  body.eof = false ∧
    ∃ e ∈ tr, e.input = .takeChunk ∧ e.before.reader = .failing ∧ e.before.context = none

def BlameAt (body : Body) (tr : CopyTrace) : CopyPoint → Prop
  | .idled => ∃ e ∈ tr, e.input = .takeIdle ∧ e.before.idleFired = true
  | .returned .stalled => Stalled tr
  | .returned .upstreamError => ReadFailed body tr
  | _ => True

theorem BlameAt.mono {tr : CopyTrace} {point : CopyPoint}
    (h : BlameAt body tr point) (tr' : CopyTrace) : BlameAt body (tr ++ tr') point := by
  have hmem : ∀ {P : Event CopyState CopyEvent Unit → Prop}, (∃ e ∈ tr, P e) →
      ∃ e ∈ tr ++ tr', P e := fun ⟨e, he, hP⟩ => ⟨e, mem_append_left tr' he, hP⟩
  cases point with
  | idled => exact hmem h
  | returned outcome =>
    cases outcome with
    | stalled => exact ⟨hmem h.1, hmem h.2⟩
    | upstreamError => exact ⟨h.1, hmem h.2⟩
    | _ => trivial
  | _ => trivial

theorem BlameAt.step {body : Body} {max : Bool} {tr : CopyTrace} {s s' : CopyState}
    {e : CopyEvent} (h : BlameAt body tr s.point) (hstep : CopyStep body max s e s') :
    BlameAt body (tr ++ [⟨s, e, ()⟩]) s'.point := by
  have hlast : (⟨s, e, ()⟩ : Event CopyState CopyEvent Unit) ∈ tr ++ [⟨s, e, ()⟩] :=
    mem_append_right tr mem_cons_self
  cases hstep with
  | idled _ hfired => exact ⟨_, hlast, rfl, hfired⟩
  | stalled hpoint hready =>
    have hfired := h.mono [⟨s, .takeDefault, ()⟩]
    rw [hpoint] at hfired
    exact ⟨hfired, _, hlast, rfl, hpoint, hready⟩
  | bodyEnded _ hreader =>
    show BlameAt body _ (.returned (endOutcome body.eof s.context))
    unfold endOutcome
    split
    · trivial
    next heof =>
    split
    · trivial
    · next hcontext =>
      exact ⟨eq_false_of_ne_true heof, _, hlast, rfl, hreader, by simpa using hcontext⟩
  | read | idleFired | maxFired | contextEnded => exact h.mono _
  | _ => trivial

/-- For every body, cut into any reads, and every order of events: the client has got a prefix of
it, all of it if the stream is completed, and the upstream is blamed only if it was silent for too
long or a read failed while the request was alive. -/
theorem streamCopy_faithful (body : Body) (max : Bool) {tr : CopyTrace}
    (h : Run (CopyState.step body max) (CopyState.start body) tr s) :
    s.written <+: body.bytes ∧ (s.point = .returned .completed → s.written = body.bytes) ∧
      ∀ outcome, s.point = .returned outcome → outcome.upstreamFault = true →
        outcome = .stalled ∧ Stalled tr ∨ outcome = .upstreamError ∧ ReadFailed body tr := by
  have hkeeps := copied_keeps ⟨tr, h⟩
  have hblame : BlameAt body tr s.point := by
    clear hkeeps
    induction h with
    | start => trivial
    | next _ hstep ih => exact ih.step (CopyState.step_cases hstep)
  refine ⟨hkeeps.written_le, hkeeps.completed, fun outcome hpoint hfault => ?_⟩
  rw [hpoint] at hblame
  cases outcome with
  | stalled => exact .inl ⟨rfl, hblame⟩
  | upstreamError => exact .inr ⟨rfl, hblame⟩
  | _ => cases hfault

/-- The client takes the first of two reads in two parts. -/
theorem two_reads_copied : ∃ tr s, Run (CopyState.step ⟨[[1, 2], []], [3], true⟩ false)
      (CopyState.start ⟨[[1, 2], []], [3], true⟩) tr s ∧
      s.written <+: (⟨[[1, 2], []], [3], true⟩ : Body).bytes ∧
      s.point = .returned .completed ∧ s.written = [1, 2, 3] := by
  refine exists_run
    [.readReturns, .takeChunk, .accept 1, .idleFires, .accept 1, .writeReturns, .readReturns,
      .readReturns, .idleFires, .takeIdle, .takeChunk, .accept 1, .writeReturns, .takeChunk] rfl
    fun hrun => ?_
  have hfaithful := streamCopy_faithful _ _ hrun
  exact ⟨hfaithful.1, rfl, hfaithful.2.1 rfl⟩

end CalvoProxy
