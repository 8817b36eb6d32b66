import CalvoProxy.Lib.Utf8
import CalvoProxy.Router.Quota

/-!
# Streamed responses

`router_stream.go`: the loop of `streamCopy` is a sequence of selects given as a script, and the
wait for the first event a race of lines against a timer.
-/

namespace CalvoProxy

inductive ContextError
  | canceled
  | deadlineExceeded
deriving DecidableEq, Repr

def isEventStream (contentType : String) : Bool :=
  GoString.contains (GoString.toLower contentType) "text/event-stream"

/-! ## The copy loop -/

/-- Data, which the write accepts or not, or the error that ended the body, with the state of the
context. -/
inductive Chunk
  | data (written : Bool)
  | failed (eof : Bool) (ctx : Option ContextError)
deriving DecidableEq, Repr

/-- One select of `streamCopy`: a chunk, the idle timer (with a chunk that arrived together with
it), the lifetime backstop, or the end of the context. -/
inductive Select
  | chunk (c : Chunk)
  | idle (arrived : Option Chunk)
  | maxDuration
  | contextDone
deriving DecidableEq, Repr

def Chunk.ends : Chunk → Option StreamOutcome
  | .data true => none
  | .data false => some .clientGone
  | .failed true _ => some .completed
  -- the request was cancelled, which tears down the upstream read too
  | .failed false (some _) => some .clientGone
  | .failed false none => some .upstreamError

/-- How a select ends the stream; a chunk wins over an idle timer that fires together with it. -/
def Select.ends : Select → Option StreamOutcome
  | .chunk c => c.ends
  | .idle (some c) => c.ends
  | .idle none => some .stalled
  | .maxDuration => some .maxReached
  | .contextDone => some .clientGone

theorem Select.idle_ends : (Select.idle none).ends.isSome = true := rfl

/-- The selects of a stream; the last one ends it. -/
structure StreamRun where
  rounds : List Select
  last : Select
  lastEnds : last.ends.isSome = true

def streamLoop (last : StreamOutcome) : List Select → StreamOutcome
  | [] => last
  | round :: rounds =>
    match round.ends with
    | some outcome => outcome
    | none => streamLoop last rounds

def streamCopy (run : StreamRun) : StreamOutcome :=
  streamLoop (run.last.ends.get run.lastEnds) run.rounds

/-! ## The first event -/

abbrev Octets := List UInt8

def newline : UInt8 := 0x0A

def colon : UInt8 := 0x3A

def dataField : Octets := [0x64, 0x61, 0x74, 0x61, colon]

/-- A line that is neither blank nor a comment. -/
def isEventLine (line : Octets) : Bool :=
  let trimmed := Utf8.trim GoString.isSpace line
  if trimmed.isEmpty || trimmed.head? = some colon then false else dataField.isPrefixOf trimmed

/-- The lines until the reader stops, and whether the timer wins the race. -/
structure FirstEvent where
  lines : List Octets
  timerWins : Bool

/-- The reader goroutine: a `data:` line is an event, a comment or a blank line is not. -/
def hasEvent (lines : List Octets) : Bool := lines.any isEventLine

/-- Whether an event arrived, and whether the wait timed out. -/
def awaitFirstStreamEvent (first : FirstEvent) : Bool × Bool :=
  if first.timerWins then (false, true) else (hasEvent first.lines, false)

/-! ## The end of a cancelled stream -/

def Select.Cancelled : Select → Prop
  | .contextDone => True
  | .chunk (.failed false ctx) => ctx = some .canceled
  | .idle (some (.failed false ctx)) => ctx = some .canceled
  | _ => False

def StreamRun.Cancelled (run : StreamRun) : Prop :=
  (∀ round ∈ run.rounds, round.ends = none) ∧ run.last.Cancelled

theorem Select.Cancelled.ends {round : Select} (h : round.Cancelled) :
    round.ends = some .clientGone := by
  cases round with
  | contextDone => rfl
  | maxDuration => exact h.elim
  | chunk c =>
    cases c with
    | data written => exact h.elim
    | failed eof ctx =>
      cases eof with
      | true => exact h.elim
      | false =>
        change ctx = _ at h
        rw [h]
        rfl
  | idle arrived =>
    cases arrived with
    | none => exact h.elim
    | some c =>
      cases c with
      | data written => exact h.elim
      | failed eof ctx =>
        cases eof with
        | true => exact h.elim
        | false =>
          change ctx = _ at h
          rw [h]
          rfl

theorem streamLoop_of_none {last : StreamOutcome} {rounds : List Select}
    (h : ∀ round ∈ rounds, round.ends = none) : streamLoop last rounds = last := by
  induction rounds with
  | nil => rfl
  | cons round rounds ih =>
    have hround := h round List.mem_cons_self
    unfold streamLoop
    rw [hround]
    exact ih fun r hr => h r (List.mem_cons_of_mem round hr)

theorem StreamRun.Cancelled.streamCopy {run : StreamRun} (h : run.Cancelled) :
    streamCopy run = .clientGone := by
  unfold CalvoProxy.streamCopy
  rw [streamLoop_of_none h.1]
  exact Option.get_of_eq_some run.lastEnds h.2.ends

end CalvoProxy
