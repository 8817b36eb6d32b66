import CalvoProxy.Lib.Lines
import CalvoProxy.Router.StreamCopy

/-!
# The wait for the first event

`awaitFirstStreamEvent` with the bytes of the body: the goroutine that reads, its channel, the
caller that waits for it or the timer, and the wrapper. No byte is lost, whether the timer has fired
or not (`awaitFirstStreamEvent_lossless`).
-/

namespace CalvoProxy

open List Machine Option Lines

inductive ReadEnd
  | eof
  | failed
  | closed
deriving DecidableEq

def Body.ending (body : Body) : ReadEnd := if body.eof then .eof else .failed

/-- `Read` of the body; it returns its end again and again. -/
def Body.read (closed : Bool) (body : Body) : Octets × Option ReadEnd × Body :=
  if closed then ([], some .closed, body)
  else
    match body.reads with
    | data :: reads => (data, none, { body with reads := reads })
    | [] => (body.lastRead, some body.ending, { body with lastRead := [] })

/-- A `bufio.Reader`: its bytes, and whether it has the end still to return. -/
structure Buffered where
  buffer : Octets
  pending : Bool
  body : Body

/-- A read of as many bytes into an empty buffer goes to the body itself. -/
def bufioSize : Nat := 4096

/-- It gives up after as many empty reads in a row. -/
def maxConsecutiveEmptyReads : Nat := 100

/-- `Read` into `n` bytes. -/
def Buffered.read (closed : Bool) (n : Nat) (b : Buffered) : Octets × Option ReadEnd × Buffered :=
  if b.buffer ≠ [] then (b.buffer.take n, none, { b with buffer := b.buffer.drop n })
  else if b.pending then ([], some b.body.ending, { b with pending := false })
  else
    let (data, ending, body) := b.body.read closed
    if bufioSize ≤ n || data.isEmpty then (data, ending, ⟨[], false, body⟩)
    else (data.take n, none, ⟨data.drop n, ending.isSome, body⟩)

structure FirstEventResult where
  consumed : Octets
  ok : Bool
  reader : Buffered

/-- The goroutine: in a read, with the lines seen, the piece of a line behind them and the empty
reads in a row; at the send; or done. -/
inductive Scanner
  | scanning (seen line : Octets) (empties : Nat) (body : Body)
  | sending (result : FirstEventResult)
  | finished

/-- A read returns, and the goroutine goes through the complete lines. -/
def scanRead (closed : Bool) (seen line : Octets) (empties : Nat) (body : Body) : Scanner :=
  let (data, ending, body) := body.read closed
  if data.isEmpty && ending.isNone then
    if empties + 1 = maxConsecutiveEmptyReads then .sending ⟨seen ++ line, false, ⟨[], false, body⟩⟩
    else .scanning seen line (empties + 1) body
  else
    match scan newline isEventLine seen line data with
    | .found consumed rest => .sending ⟨consumed, true, ⟨rest, ending.isSome, body⟩⟩
    | .more seen line =>
      if ending.isSome then .sending ⟨seen ++ line, false, ⟨[], false, body⟩⟩
      else .scanning seen line 0 body

/-- The caller waits, has a wrapper that waits for the result or replays `consumed` in front of the
reader, or was told EOF. -/
inductive Caller
  | waiting
  | pending
  | replaying (consumed : Octets) (reader : Buffered)
  | exhausted

/-- `Read` of the `MultiReader`. -/
def replayRead (closed : Bool) (n : Nat) (consumed : Octets) (reader : Buffered) :
    Octets × Option ReadEnd × Caller :=
  if consumed ≠ [] then (consumed.take n, none, .replaying (consumed.drop n) reader)
  else
    let (data, ending, reader) := reader.read closed n
    (data, ending, if ending = some .eof then .exhausted else .replaying [] reader)

/-- `channel` has room for one result. -/
structure AwaitState where
  scanner : Scanner
  channel : Option FirstEventResult
  caller : Caller
  closed : Bool

inductive AwaitEvent
  | readReturns
  | send
  | receive
  | timeout
  | read (n : Nat)
  | close
deriving DecidableEq

/-- The call returns, with the flags of the event and the timeout, or a read of the wrapper. -/
inductive AwaitOutput
  | silent
  | returned (gotEvent timedOut : Bool)
  | read (data : Octets) (ending : Option ReadEnd)

namespace AwaitState

def replay (s : AwaitState) (n : Nat) (consumed : Octets) (reader : Buffered) :
    AwaitState × AwaitOutput :=
  let (data, ending, caller) := replayRead s.closed n consumed reader
  ({ s with caller := caller }, .read data ending)

def step (s : AwaitState) : AwaitEvent → Option (AwaitState × AwaitOutput)
  | .readReturns =>
    match s.scanner with
    | .scanning seen line empties body =>
      some ({ s with scanner := scanRead s.closed seen line empties body }, .silent)
    | _ => none
  | .send =>
    match s.scanner, s.channel with
    | .sending result, none =>
      some ({ s with scanner := .finished, channel := some result }, .silent)
    | _, _ => none
  | .receive =>
    match s.caller, s.channel with
    | .waiting, some result =>
      some ({ s with channel := none, caller := .replaying result.consumed result.reader },
        .returned result.ok false)
    | _, _ => none
  | .timeout =>
    match s.caller with
    | .waiting => some ({ s with caller := .pending }, .returned false true)
    | _ => none
  | .read n =>
    if n = 0 then none
    else
      match s.caller, s.channel with
      | .replaying consumed reader, _ => some (s.replay n consumed reader)
      -- the first read waits for the result
      | .pending, some result =>
        some ({ s with channel := none }.replay n result.consumed result.reader)
      | .exhausted, _ => some (s, .read [] (some .eof))
      | _, _ => none
  | .close =>
    match s.caller with
    | .waiting => none
    | _ => some ({ s with closed := true }, .silent)

def start (body : Body) : AwaitState := ⟨.scanning [] [] 0 body, none, .waiting, false⟩

end AwaitState

variable {s s' : AwaitState} {e : AwaitEvent} {o : AwaitOutput} {reader : Buffered} {body : Body}
  {seen line consumed : Octets} {empties n : Nat} {closed : Bool} {x : ReadEnd}

/-! ## What a read gives -/

/-- The bytes and the end that a reader has still to give, and a bound of the reads without it. -/
structure Supply where
  bytes : Octets
  ending : ReadEnd
  work : Nat

structure Supply.Gives (closed : Bool) (supply : Supply) (data : Octets) (ending : Option ReadEnd)
    (left : Supply) : Prop where
  bytes : data ++ left.bytes = supply.bytes
  same : left.ending = supply.ending
  ended : ∀ x ∈ ending, closed = true ∧ x = .closed ∨ left.bytes = [] ∧ x = supply.ending
  work : ending = none → left.work < supply.work

def Body.supply (body : Body) : Supply :=
  ⟨body.bytes, body.ending, body.bytes.length + body.reads.length⟩

def Buffered.supply (b : Buffered) : Supply :=
  ⟨b.buffer ++ b.body.bytes, b.body.ending, (b.buffer ++ b.body.bytes).length + b.body.reads.length⟩

def Buffered.Sound (b : Buffered) : Prop := b.pending = true → b.body.bytes = []

theorem Body.read_gives (closed : Bool) (body : Body) :
    body.supply.Gives closed (body.read closed).1 (body.read closed).2.1
      (body.read closed).2.2.supply := by
  cases closed with
  | true =>
    refine ⟨rfl, rfl, fun x hx => ?_, fun h => ?_⟩
    · cases hx
      exact .inl ⟨rfl, rfl⟩
    · cases h
  | false =>
    obtain ⟨reads, lastRead, eof⟩ := body
    cases reads with
    | nil =>
      refine ⟨by simp [Body.read, Body.supply, Body.bytes], rfl, fun x hx => ?_, fun h => ?_⟩
      · cases hx
        exact .inr ⟨rfl, rfl⟩
      · cases h
    | cons data reads =>
      refine ⟨by simp [Body.read, Body.supply, Body.bytes], rfl, fun x hx => ?_, fun _ => ?_⟩
      · cases hx
      · simp only [Body.read, Body.supply, Body.bytes, Bool.false_eq_true, if_false,
          flatten_cons, length_append, length_cons]
        omega

theorem Body.read_reads_le (closed : Bool) (body : Body) :
    (body.read closed).2.2.reads.length ≤ body.reads.length := by
  cases closed with
  | true => exact Nat.le_refl _
  | false =>
    obtain ⟨reads, lastRead, eof⟩ := body
    cases reads with
    | nil => exact Nat.le_refl _
    | cons data reads => exact Nat.le_succ _

theorem Body.read_last (hdata : (body.read closed).1 ≠ [])
    (hending : (body.read closed).2.1.isSome = true) : (body.read closed).2.2.bytes = [] := by
  cases closed with
  | true => exact absurd rfl hdata
  | false =>
    obtain ⟨reads, lastRead, eof⟩ := body
    cases reads with
    | nil => rfl
    | cons data reads => cases hending

theorem Buffered.read_gives (hn : n ≠ 0) {b : Buffered} (h : b.Sound) :
    b.supply.Gives closed (b.read closed n).1 (b.read closed n).2.1
      (b.read closed n).2.2.supply ∧ (b.read closed n).2.2.Sound := by
  unfold Buffered.read
  split
  · next hbuffer =>
    refine ⟨⟨?_, rfl, fun x hx => ?_, fun _ => ?_⟩, h⟩
    · simp [supply, ← append_assoc]
    · cases hx
    · have hpos := length_pos_iff.mpr hbuffer
      simp only [supply, length_append, length_drop]
      omega
  · next hbuffer =>
    have hbuffer : b.buffer = [] := Classical.not_not.mp hbuffer
    split
    · next hpending =>
      refine ⟨⟨by simp [supply], rfl, fun x hx => ?_, fun hx => ?_⟩, fun hs => ?_⟩
      · cases hx
        exact .inr ⟨by simp [supply, hbuffer, h hpending], rfl⟩
      · cases hx
      · cases hs
    · have hgives := b.body.read_gives closed
      have hlast := @Body.read_last b.body closed
      have hreads := b.body.read_reads_le closed
      have hsupply : b.supply = b.body.supply := by simp [supply, Body.supply, hbuffer]
      rw [hsupply]
      generalize b.body.read closed = r at hgives hlast hreads
      obtain ⟨data, ending, body⟩ := r
      dsimp only at hgives hlast hreads ⊢
      split
      · exact ⟨hgives, fun hs => by cases hs⟩
      next hdirect =>
      have hdata : data ≠ [] := by
        intro hnil
        simp [hnil] at hdirect
      have hpos := length_pos_iff.mpr hdata
      refine ⟨⟨?_, hgives.same, fun x hx => ?_, fun _ => ?_⟩, hlast hdata⟩
      · have := hgives.bytes
        simp only [Body.supply] at this
        simp [supply, Body.supply, ← this, ← append_assoc]
      · cases hx
      · have hlength := congrArg List.length hgives.bytes
        simp only [supply, Body.supply, length_append, length_drop] at hlength ⊢
        omega

inductive AwaitStep (s : AwaitState) : AwaitEvent → AwaitState → AwaitOutput → Prop
  | readReturned {seen line : Octets} {empties : Nat} {body : Body}
      (hscanner : s.scanner = .scanning seen line empties body) :
      AwaitStep s .readReturns { s with scanner := scanRead s.closed seen line empties body }
        .silent
  | sent {result : FirstEventResult} (hscanner : s.scanner = .sending result)
      (hchannel : s.channel = none) :
      AwaitStep s .send { s with scanner := .finished, channel := some result } .silent
  | received {result : FirstEventResult} (hcaller : s.caller = .waiting)
      (hchannel : s.channel = some result) :
      AwaitStep s .receive
        { s with channel := none, caller := .replaying result.consumed result.reader }
        (.returned result.ok false)
  | timedOut (hcaller : s.caller = .waiting) :
      AwaitStep s .timeout { s with caller := .pending } (.returned false true)
  | replayed {n : Nat} {consumed : Octets} {reader : Buffered} (hn : n ≠ 0)
      (hcaller : s.caller = .replaying consumed reader) :
      AwaitStep s (.read n) (s.replay n consumed reader).1 (s.replay n consumed reader).2
  | handedOver {n : Nat} {result : FirstEventResult} (hn : n ≠ 0) (hcaller : s.caller = .pending)
      (hchannel : s.channel = some result) :
      AwaitStep s (.read n) ({ s with channel := none }.replay n result.consumed result.reader).1
        ({ s with channel := none }.replay n result.consumed result.reader).2
  | toldAgain {n : Nat} (hcaller : s.caller = .exhausted) :
      AwaitStep s (.read n) s (.read [] (some .eof))
  | closed (hcaller : s.caller ≠ .waiting) : AwaitStep s .close { s with closed := true } .silent

theorem AwaitState.step_cases (h : s.step e = some (s', o)) : AwaitStep s e s' o := by
  cases e with
  | readReturns =>
    simp only [step] at h
    split at h
    · next hscanner =>
      cases h
      exact .readReturned hscanner
    · cases h
  | send =>
    simp only [step] at h
    split at h
    · next hscanner hchannel =>
      cases h
      exact .sent hscanner hchannel
    · cases h
  | receive =>
    simp only [step] at h
    split at h
    · next hcaller hchannel =>
      cases h
      exact .received hcaller hchannel
    · cases h
  | timeout =>
    simp only [step] at h
    split at h
    · next hcaller =>
      cases h
      exact .timedOut hcaller
    · cases h
  | read n =>
    simp only [step] at h
    split at h
    · cases h
    next hn =>
    split at h
    · next hcaller =>
      cases h
      exact .replayed hn hcaller
    · next hcaller hchannel =>
      cases h
      exact .handedOver hn hcaller hchannel
    · next hcaller =>
      cases h
      exact .toldAgain hcaller
    · cases h
  | close =>
    simp only [step] at h
    split at h
    · cases h
    · next hcaller =>
      cases h
      exact .closed hcaller

/-! ## No byte is lost -/

def startsData (line : Octets) : Bool := dataField.isPrefixOf (Utf8.trim GoString.isSpace line)

def IgnoredLine (line : Octets) : Prop :=
  Utf8.trim GoString.isSpace line = [] ∨ (Utf8.trim GoString.isSpace line).head? = some colon

theorem IgnoredLine.startsData_eq (h : IgnoredLine line) : startsData line = false := by
  unfold IgnoredLine at h
  unfold startsData
  generalize Utf8.trim GoString.isSpace line = trimmed at h
  cases trimmed with
  | nil => rfl
  | cons b rest =>
    rcases h with h | h
    · cases h
    · cases h
      rfl

theorem isEventLine_eq : isEventLine = startsData := by
  funext line
  unfold isEventLine
  simp only
  split
  · next h =>
    rw [IgnoredLine.startsData_eq]
    simpa [IgnoredLine, List.isEmpty_iff] using h
  · rfl

def HasEvent (bytes : Octets) : Prop := HasLine newline startsData bytes

/-- So many reads in a row are empty that the reader gives up. -/
def givesUp (empties : Nat) : List Octets → Bool
  | [] => false
  | [] :: reads => empties + 1 = maxConsecutiveEmptyReads || givesUp (empties + 1) reads
  | (_ :: _) :: reads => givesUp 0 reads

/-- The goroutine has seen no event, and the rest of the body is to come. -/
structure Scanning (body : Body) (seen line : Octets) (empties : Nat) (left : Body) : Prop where
  bytes : seen ++ line ++ left.bytes = body.bytes
  ending : left.ending = body.ending
  clear : Clear newline isEventLine seen line
  reads : givesUp 0 body.reads = false → givesUp empties left.reads = false

structure FirstEventResult.Holds (body : Body) (closed : Bool) (r : FirstEventResult) : Prop where
  bytes : r.consumed ++ r.reader.supply.bytes = body.bytes
  ending : r.reader.supply.ending = body.ending
  sound : r.reader.Sound
  event : r.ok = true → HasEvent r.consumed
  none : r.ok = false → closed = false → givesUp 0 body.reads = false → ¬HasEvent body.bytes

def Scanner.Holds (body : Body) (closed : Bool) : Scanner → Prop
  | .scanning seen line empties left => Scanning body seen line empties left
  | .sending result => result.Holds body closed
  | .finished => False

theorem Scanning.stopped {left : Body} (hbytes : seen ++ line ++ left.bytes = body.bytes)
    (hending : left.ending = body.ending)
    (hnone : closed = false → givesUp 0 body.reads = false → ¬HasEvent body.bytes) :
    FirstEventResult.Holds body closed ⟨seen ++ line, false, ⟨[], false, left⟩⟩ where
  bytes := hbytes
  ending := hending
  sound h := by cases h
  event h := by cases h
  none _ := hnone

theorem Scanning.scanned {data : Octets} (left : Body) (ending : Option ReadEnd)
    (hbytes : seen ++ line ++ (data ++ left.bytes) = body.bytes)
    (hending : left.ending = body.ending) (hclear : Clear newline isEventLine seen line)
    (hlast : ending.isSome = true → left.bytes = [])
    (hreads : givesUp 0 body.reads = false → givesUp 0 left.reads = false) :
    Scanner.Holds body closed (match scan newline isEventLine seen line data with
      | .found consumed rest => .sending ⟨consumed, true, ⟨rest, ending.isSome, left⟩⟩
      | .more seen line =>
        if ending.isSome then .sending ⟨seen ++ line, false, ⟨[], false, left⟩⟩
        else .scanning seen line 0 left) := by
  rw [← append_assoc] at hbytes
  have hscan := scan_of hclear data
  generalize scan newline isEventLine seen line data = scanned at hscan
  cases scanned with
  | found consumed rest =>
    obtain ⟨hline, heq⟩ := hscan
    rw [isEventLine_eq] at hline
    refine ⟨?_, hending, hlast, fun _ => hline, fun hok => ?_⟩
    · rw [← hbytes, ← heq, append_assoc]
      rfl
    · cases hok
  | more seen' line' =>
    obtain ⟨hclear', heq⟩ := hscan
    rw [← heq] at hbytes
    dsimp only
    split
    · next hsome =>
      refine Scanning.stopped hbytes hending fun _ _ => ?_
      rw [← hbytes, hlast hsome, append_nil, HasEvent, ← isEventLine_eq]
      exact hclear'.none
    · exact ⟨hbytes, hending, hclear', hreads⟩

theorem scanRead_holds {left : Body} (h : Scanning body seen line empties left) :
    (scanRead closed seen line empties left).Holds body closed := by
  cases closed with
  | true => exact Scanning.stopped h.bytes h.ending fun hopen => by cases hopen
  | false =>
    obtain ⟨hbytes, hending, hclear, hreads⟩ := h
    obtain ⟨reads, lastRead, eof⟩ := left
    cases reads with
    | nil =>
      have hempty : (lastRead.isEmpty && (some (Body.ending ⟨[], lastRead, eof⟩)).isNone) = false :=
        Bool.and_false _
      simp only [scanRead, Body.read, Bool.false_eq_true, if_false, hempty]
      refine Scanning.scanned ⟨[], [], eof⟩ _ ?_ hending hclear (fun _ => rfl) fun _ => rfl
      rw [← hbytes]
      simp [Body.bytes]
    | cons data reads =>
      cases data with
      | nil =>
        have hskipped : seen ++ line ++ Body.bytes ⟨reads, lastRead, eof⟩ = body.bytes := hbytes
        simp only [givesUp, Bool.or_eq_false_iff, decide_eq_false_iff_not] at hreads
        simp only [scanRead, Body.read, Bool.false_eq_true, if_false, isEmpty_nil,
          isNone_none, Bool.and_self, if_true]
        split
        · next hmax =>
          exact Scanning.stopped hskipped hending fun _ hgoes => absurd hmax (hreads hgoes).1
        · exact ⟨hskipped, hending, hclear, fun hgoes => (hreads hgoes).2⟩
      | cons b data =>
        simp only [scanRead, Body.read, Bool.false_eq_true, if_false, isEmpty_cons, Bool.false_and]
        refine Scanning.scanned ⟨reads, lastRead, eof⟩ none ?_ hending hclear (fun hsome => ?_)
          hreads
        · rw [← hbytes]
          simp [Body.bytes]
        · cases hsome

def AwaitOutput.data : AwaitOutput → Octets
  | .read data _ => data
  | _ => []

/-- What the wrapper has still to give. -/
def Caller.supply : Caller → Supply
  | .replaying consumed reader =>
    ⟨consumed ++ reader.supply.bytes, reader.supply.ending, reader.supply.work + consumed.length⟩
  | _ => ⟨[], .eof, 0⟩

def Caller.Reads : Caller → Prop
  | .replaying _ reader => reader.Sound
  | .exhausted => True
  | _ => False

theorem AwaitState.replay_gives (s : AwaitState) (hn : n ≠ 0) (hsound : reader.Sound) :
    ∃ data ending caller, s.replay n consumed reader =
        ({ s with caller := caller }, .read data ending) ∧ caller.Reads ∧
      (Caller.replaying consumed reader).supply.Gives s.closed data ending caller.supply := by
  have heq : s.replay n consumed reader = ({ s with
      caller := (replayRead s.closed n consumed reader).2.2 }, .read
      (replayRead s.closed n consumed reader).1 (replayRead s.closed n consumed reader).2.1) := rfl
  refine ⟨_, _, _, heq, ?_⟩
  unfold replayRead
  by_cases hconsumed : consumed = []
  · subst hconsumed
    obtain ⟨hgives, hsound'⟩ := @Buffered.read_gives n s.closed hn reader hsound
    generalize reader.read s.closed n = r at hgives hsound'
    obtain ⟨data, ending, reader'⟩ := r
    simp only [ne_eq, not_true_eq_false, if_false]
    split
    · next heof =>
      subst heof
      rcases hgives.ended .eof rfl with ⟨-, hx⟩ | ⟨hnil, hx⟩
      · cases hx
      refine ⟨trivial, ?_, hx, fun x h => ?_, fun h => by cases h⟩
      · have hbytes := hgives.bytes
        rwa [hnil] at hbytes
      · cases h
        exact .inr ⟨rfl, hx⟩
    · exact ⟨hsound', hgives⟩
  · rw [if_pos hconsumed]
    refine ⟨hsound, ?_, rfl, fun x h => (by cases h), fun _ => ?_⟩
    · show consumed.take n ++ (consumed.drop n ++ _) = consumed ++ _
      rw [← append_assoc, take_append_drop]
    · have hpos := length_pos_iff.mpr hconsumed
      simp only [Caller.supply, length_drop]
      omega

/-- The result is to come, and then it is the first event of the body. -/
def AwaitState.Holds (body : Body) (s : AwaitState) : Prop :=
  s.channel.elim (s.scanner.Holds body s.closed) fun result =>
    s.scanner = .finished ∧ result.Holds body s.closed

theorem FirstEventResult.Holds.close {r : FirstEventResult}
    (h : r.Holds body closed) : r.Holds body true :=
  { h with none := fun _ hopen => by cases hopen }

theorem AwaitState.Holds.close (h : s.Holds body) : { s with closed := true }.Holds body := by
  obtain ⟨scanner, _ | result, caller, closed⟩ := s
  · cases scanner with
    | scanning | finished => exact h
    | sending result => exact FirstEventResult.Holds.close h
  · exact ⟨h.1, h.2.close⟩

inductive AwaitState.Stage (body : Body) (handed : Octets) (s : AwaitState) : Prop
  | awaiting (hcaller : s.caller = .waiting ∨ s.caller = .pending)
      (hopen : s.caller = .waiting → s.closed = false) (hhanded : handed = []) (h : s.Holds body)
  | reading (hcaller : s.caller.Reads) (hchannel : s.channel = none)
      (hscanner : s.scanner = .finished) (hbytes : handed ++ s.caller.supply.bytes = body.bytes)
      (hending : s.caller.supply.ending = body.ending)

namespace AwaitState.Stage

variable {handed : Octets} (h : s.Stage body handed)

include h

theorem of_scanner (hscanner : s.scanner ≠ .finished) :
    s.channel = none ∧ s.scanner.Holds body s.closed ∧
      ∀ {s' : AwaitState}, s'.caller = s.caller → s'.closed = s.closed → s'.Holds body →
        s'.Stage body handed := by
  cases h with
  | reading _ _ hfinished => exact absurd hfinished hscanner
  | awaiting hcaller hopen hhanded h =>
    cases hchannel : s.channel with
    | some result =>
      rw [Holds, hchannel] at h
      exact absurd h.1 hscanner
    | none =>
      rw [Holds, hchannel] at h
      refine ⟨rfl, h, fun hcaller' hclosed' h' => ?_⟩
      exact .awaiting (hcaller' ▸ hcaller) (hcaller' ▸ hclosed' ▸ hopen) hhanded h'

theorem of_channel {result : FirstEventResult} (hchannel : s.channel = some result) :
    (s.caller = .waiting → s.closed = false) ∧ s.scanner = .finished ∧ handed = [] ∧
      result.Holds body s.closed := by
  cases h with
  | reading _ hnone => cases hchannel.symm.trans hnone
  | awaiting _ hopen hhanded h =>
    rw [Holds, hchannel] at h
    exact ⟨hopen, h.1, hhanded, h.2⟩

theorem of_reads (hcaller : s.caller.Reads) :
    s.channel = none ∧ s.scanner = .finished ∧ handed ++ s.caller.supply.bytes = body.bytes ∧
      s.caller.supply.ending = body.ending := by
  cases h with
  | awaiting hwaits => rcases hwaits with h | h <;> (rw [h] at hcaller; exact hcaller.elim)
  | reading _ hchannel hscanner hbytes hending => exact ⟨hchannel, hscanner, hbytes, hending⟩

/-- A read gives what there is, and the wrapper goes on from there. -/
theorem read (hstep : AwaitStep s (.read n) s' o) :
    ∃ data ending supply, o = .read data ending ∧ s'.closed = s.closed ∧ s'.channel = none ∧
      s'.scanner = .finished ∧ s'.caller.Reads ∧ handed ++ supply.bytes = body.bytes ∧
      supply.ending = body.ending ∧ (s.caller.Reads → supply = s.caller.supply) ∧
      supply.Gives s.closed data ending s'.caller.supply := by
  cases hstep with
  | @replayed _ consumed reader hn hcaller =>
    have hsound : s.caller.Reads → reader.Sound := fun hreads => by rwa [hcaller] at hreads
    cases h with
    | awaiting hwaits => rcases hwaits with h | h <;> cases hcaller.symm.trans h
    | reading hreads hchannel hscanner hbytes hending =>
      obtain ⟨data, ending, caller, heq, hreads', hgives⟩ :=
        @replay_gives reader consumed n s hn (hsound hreads)
      rw [heq, ← hcaller] at *
      exact ⟨data, ending, _, rfl, rfl, hchannel, hscanner, hreads', hbytes, hending, fun _ => rfl,
        hgives⟩
  | @handedOver _ result hn hcaller hchannel =>
    obtain ⟨-, hscanner, rfl, hresult⟩ := h.of_channel hchannel
    obtain ⟨data, ending, caller, heq, hreads', hgives⟩ := @replay_gives result.reader
      result.consumed n { s with channel := none } hn hresult.sound
    rw [heq]
    refine ⟨data, ending, (Caller.replaying result.consumed result.reader).supply, rfl, rfl, rfl,
      hscanner, hreads', hresult.bytes, hresult.ending, fun hreads => ?_, hgives⟩
    rw [hcaller] at hreads
    exact hreads.elim
  | toldAgain hcaller =>
    have hreads : s.caller.Reads := hcaller ▸ trivial
    obtain ⟨hchannel, hscanner, hbytes, hending⟩ := h.of_reads hreads
    refine ⟨[], some .eof, _, rfl, rfl, hchannel, hscanner, hreads, hbytes, hending, fun _ => rfl,
      rfl, rfl, fun x hx => ?_, fun h => by cases h⟩
    cases hx
    rw [hcaller]
    exact .inr ⟨rfl, rfl⟩

theorem step (hstep : AwaitStep s e s' o) : s'.Stage body (handed ++ o.data) := by
  have hsilent : handed ++ [] = handed := append_nil handed
  have hread : ∀ n, e = .read n → s'.Stage body (handed ++ o.data) := by
    rintro n rfl
    obtain ⟨data, ending, supply, rfl, -, hchannel, hscanner, hreads, hbytes, hending, -, hgives⟩ :=
      h.read hstep
    refine .reading hreads hchannel hscanner ?_ (hgives.same.trans hending)
    rw [AwaitOutput.data, append_assoc, hgives.bytes, hbytes]
  cases hstep with
  | readReturned hscanner =>
    obtain ⟨hchannel, hholds, hnext⟩ := h.of_scanner (by simp [hscanner])
    refine hsilent.symm ▸ hnext rfl rfl ?_
    rw [hscanner] at hholds
    rw [Holds, hchannel]
    exact scanRead_holds hholds
  | sent hscanner hchannel =>
    obtain ⟨-, hholds, hnext⟩ := h.of_scanner (by simp [hscanner])
    rw [hscanner] at hholds
    exact hsilent.symm ▸ hnext rfl rfl ⟨rfl, hholds⟩
  | received hcaller hchannel =>
    obtain ⟨-, hscanner, hhanded, h⟩ := h.of_channel hchannel
    refine hsilent.symm ▸ .reading h.sound rfl hscanner ?_ h.ending
    rw [hhanded]
    exact h.bytes
  | timedOut hcaller =>
    cases h with
    | awaiting _ _ hhanded h => exact hsilent.symm ▸ .awaiting (.inr rfl) (by simp) hhanded h
    | reading hreads =>
      rw [hcaller] at hreads
      exact hreads.elim
  | replayed | handedOver | toldAgain => exact hread _ rfl
  | closed hcaller =>
    cases h with
    | awaiting hwaits _ hhanded h =>
      exact hsilent.symm ▸ .awaiting hwaits (absurd · hcaller) hhanded h.close
    | reading hreads hchannel hscanner hbytes hending =>
      exact hsilent.symm ▸ .reading hreads hchannel hscanner hbytes hending

theorem ended (hstep : AwaitStep s e s' o) {data : Octets} (ho : o = .read data (some x)) :
    s.closed = true ∧ x = .closed ∨ handed ++ data = body.bytes ∧ x = body.ending := by
  have hread : ∀ n, e = .read n →
      s.closed = true ∧ x = .closed ∨ handed ++ data = body.bytes ∧ x = body.ending := by
    rintro n rfl
    obtain ⟨data', ending, supply, rfl, -, -, -, -, hbytes, hending, -, hgives⟩ := h.read hstep
    cases ho
    refine (hgives.ended x rfl).imp_right fun ⟨hnil, hx⟩ => ⟨?_, hx.trans hending⟩
    rw [← hbytes, ← hgives.bytes, hnil, append_nil]
  cases hstep with
  | readReturned | sent | received | timedOut | closed => cases ho
  | replayed | handedOver | toldAgain => exact hread _ rfl

theorem handed_le : handed <+: body.bytes := by
  cases h with
  | awaiting _ _ hhanded => exact hhanded ▸ nil_prefix
  | reading _ _ _ hbytes => exact ⟨_, hbytes⟩

end AwaitState.Stage

abbrev AwaitTrace := List (Event AwaitState AwaitEvent AwaitOutput)

/-- What the reads of the wrapper have returned. -/
def handed (tr : AwaitTrace) : Octets := (tr.map fun e => e.output.data).flatten

def readsOf (tr : AwaitTrace) : List Octets := tr.filterMap fun e =>
  match e.output with
  | .read data _ => some data
  | _ => none

theorem handed_append (tr tr' : AwaitTrace) : handed (tr ++ tr') = handed tr ++ handed tr' := by
  simp [handed]

theorem handed_eq (tr : AwaitTrace) : handed tr = (readsOf tr).flatten := by
  induction tr with
  | nil => rfl
  | cons e tr ih =>
    rw [readsOf, filterMap_cons, ← readsOf, handed, map_cons, flatten_cons, ← handed, ih]
    cases e.output <;> rfl

theorem handed_concat (tr : AwaitTrace) (e : Event AwaitState AwaitEvent AwaitOutput) :
    handed (tr ++ [e]) = handed tr ++ e.output.data := by
  simp [handed]

section Runs

variable {tr : AwaitTrace} {e : Event AwaitState AwaitEvent AwaitOutput}
  (h : Run AwaitState.step (AwaitState.start body) tr s)

include h

theorem awaited_stage : s.Stage body (handed tr) := by
  induction h with
  | start =>
    exact .awaiting (.inl rfl) (fun _ => rfl) rfl ⟨rfl, rfl, Clear.start _ _, id⟩
  | next _ hstep ih =>
    rw [handed_concat]
    exact ih.step (AwaitState.step_cases hstep)

theorem awaited_ended (he : e ∈ tr) (hopen : e.before.closed = false)
    {data : Octets} (ho : e.output = .read data (some x)) :
    handed tr = body.bytes ∧ x = body.ending := by
  induction h with
  | start => exact absurd he not_mem_nil
  | @next tr s s' i o hrun hstep ih =>
    rw [handed_concat]
    rcases mem_append.mp he with hold | hnew
    · obtain ⟨hbytes, hx⟩ := ih hold
      have hle : handed tr ++ o.data <+: body.bytes :=
        ((awaited_stage hrun).step (AwaitState.step_cases hstep)).handed_le
      refine ⟨?_, hx⟩
      rw [hbytes] at hle ⊢
      exact hle.eq_of_length_le (by simp)
    · cases mem_singleton.mp hnew
      rcases (awaited_stage hrun).ended (AwaitState.step_cases hstep) ho with ⟨hclosed, -⟩ | hend
      · cases hopen.symm.trans hclosed
      · rw [show o = .read data (some x) from ho]
        exact hend

theorem awaited_flags (he : e ∈ tr) {gotEvent timedOut : Bool}
    (ho : e.output = .returned gotEvent timedOut) :
    (gotEvent = true → timedOut = false ∧ ∃ result, e.before.channel = some result ∧
      HasEvent result.consumed ∧ result.consumed <+: body.bytes) ∧
    (timedOut = false → givesUp 0 body.reads = false →
      (gotEvent = true ↔ HasEvent body.bytes)) := by
  obtain ⟨i, hi⟩ := List.getElem?_of_mem he
  obtain ⟨s', hbefore, hstep, -⟩ := h.split_at hi
  have hstage := awaited_stage hbefore
  rw [ho] at hstep
  generalize e.before = t at *
  generalize e.input = i at *
  cases AwaitState.step_cases hstep with
  | @received result hcaller hchannel =>
    obtain ⟨hopen, -, -, hresult⟩ := hstage.of_channel hchannel
    have hle : result.consumed <+: body.bytes := ⟨_, hresult.bytes⟩
    refine ⟨fun hok => ⟨rfl, result, hchannel, hresult.event hok, hle⟩, fun _ hgoes => ?_⟩
    constructor
    · intro hok
      rw [← hresult.bytes]
      exact (hresult.event hok).append _
    · intro hevent
      cases hok : result.ok with
      | true => rfl
      | false => exact absurd hevent (hresult.none hok (hopen hcaller) hgoes)
  | timedOut =>
    refine ⟨fun hgot => ?_, fun htimedOut => ?_⟩
    · cases hgot
    · cases htimedOut

/-- The call returns what `awaitFirstStreamEvent` makes of the complete lines of the body. -/
theorem awaited_returns (hgoes : givesUp 0 body.reads = false) {lines : List Octets} {rest : Octets}
    (hbytes : body.bytes = lines.flatten ++ rest) (hlines : ∀ l ∈ lines, IsLine newline l)
    (hrest : newline ∉ rest) (he : e ∈ tr)
    {gotEvent timedOut : Bool} (ho : e.output = .returned gotEvent timedOut) :
    awaitFirstStreamEvent ⟨lines, timedOut⟩ = (gotEvent, timedOut) := by
  obtain ⟨hgot, hdecided⟩ := awaited_flags h he ho
  cases timedOut with
  | true =>
    cases gotEvent with
    | false => rfl
    | true => cases (hgot rfl).1
  | false =>
    have hevent := hdecided rfl hgoes
    rw [hbytes, HasEvent, ← isEventLine_eq, hasLine_iff hlines hrest] at hevent
    have heq : hasEvent lines = gotEvent := by
      rw [Bool.eq_iff_iff, hevent, hasEvent, List.any_eq_true]
    exact congrArg (·, false) heq

end Runs

/-! ## The goroutine ends -/

def AwaitEvent.own : AwaitEvent → Bool
  | .readReturns => true
  | .send => true
  | _ => false

/-- The steps that the goroutine can still make. -/
def Scanner.left (closed : Bool) : Scanner → Nat
  | .scanning _ _ _ body => if closed then 2 else body.reads.length + 2
  | .sending _ => 1
  | .finished => 0

theorem scanRead_left (closed : Bool) (seen line : Octets) (empties : Nat) (body : Body) :
    (scanRead closed seen line empties body).left closed <
      (Scanner.scanning seen line empties body).left closed := by
  cases closed with
  | true => exact Nat.lt_succ_self 1
  | false =>
    obtain ⟨reads, lastRead, eof⟩ := body
    cases reads with
    | nil =>
      simp only [scanRead, Body.read, Bool.false_eq_true, if_false, isNone_some,
        Bool.and_false, isSome_some, if_true]
      split <;> exact Nat.lt_succ_self 1
    | cons data reads =>
      simp only [scanRead, Body.read, Bool.false_eq_true, if_false, isSome_none]
      split
      · split
        · simp [Scanner.left]
        · simp [Scanner.left]
      · split
        · simp [Scanner.left]
        · simp [Scanner.left]

def AwaitState.left (s : AwaitState) : Nat := s.scanner.left s.closed

theorem AwaitState.left_close (s : AwaitState) : { s with closed := true }.left ≤ s.left := by
  unfold left
  cases s.scanner with
  | scanning seen line empties body =>
    simp only [Scanner.left, if_true]
    split <;> omega
  | sending | finished => exact Nat.le_refl _

theorem AwaitStep.left (h : AwaitStep s e s' o) : (if e.own then 1 else 0) + s'.left ≤ s.left := by
  cases h with
  | @readReturned seen line empties body hscanner =>
    have hless := scanRead_left s.closed seen line empties body
    simp only [AwaitState.left, AwaitEvent.own, if_true, hscanner]
    omega
  | sent hscanner => simp [AwaitState.left, AwaitEvent.own, hscanner, Scanner.left]
  | received | timedOut | toldAgain => simp [AwaitState.left, AwaitEvent.own]
  | replayed | handedOver => simp [AwaitState.left, AwaitEvent.own, AwaitState.replay]
  | closed =>
    have hless := s.left_close
    simpa [AwaitEvent.own] using hless

theorem run_left {tr : AwaitTrace} (h : Run AwaitState.step s tr s') :
    tr.countP (fun e => e.input.own) + s'.left ≤ s.left := by
  induction h with
  | start => simp
  | next _ hstep ih =>
    have hless := (AwaitState.step_cases hstep).left
    rw [countP_append, countP_singleton]
    dsimp only
    omega

theorem AwaitState.Stage.goes {handed : Octets} (h : s.Stage body handed)
    (hleft : s.scanner ≠ .finished) :
    ∃ e s' o, e.own = true ∧ s.step e = some (s', o) ∧ s'.caller = s.caller ∧
      s'.closed = s.closed := by
  cases hscanner : s.scanner with
  | scanning seen line empties left =>
    exact ⟨.readReturns, { s with scanner := scanRead s.closed seen line empties left }, .silent,
      rfl, by simp only [AwaitState.step, hscanner], rfl, rfl⟩
  | sending result =>
    obtain ⟨hchannel, -⟩ := h.of_scanner hleft
    exact ⟨.send, { s with scanner := .finished, channel := some result }, .silent, rfl,
      by simp only [AwaitState.step, hscanner, hchannel], rfl, rfl⟩
  | finished => exact absurd hscanner hleft

/-! ## The reads come to the end -/

/-- Steps of the goroutine and reads into `n` bytes, with the body as open as before. -/
def ReadsOn (n : Nat) (closed : Bool) (tr : AwaitTrace) : Prop :=
  ∀ e ∈ tr, (e.input.own = true ∨ e.input = .read n) ∧ e.before.closed = closed

def ToldEnd (tr : AwaitTrace) : Prop := ∃ e ∈ tr, ∃ data x, e.output = .read data (some x)

def ReadsToEnd (n : Nat) (s : AwaitState) : Prop :=
  ∃ tr s', Run AwaitState.step s tr s' ∧ ReadsOn n s.closed tr ∧ ToldEnd tr

section Reads

theorem ReadsToEnd.told (hstep : s.step e = some (s', o)) (he : e.own = true ∨ e = .read n)
    {data : Octets} (ho : o = .read data (some x)) : ReadsToEnd n s := by
  refine ⟨[⟨s, e, o⟩], s', Run.start.next hstep, fun e' he' => ?_, ⟨s, e, o⟩, by simp, data, x, ho⟩
  cases mem_singleton.mp he'
  exact ⟨he, rfl⟩

theorem ReadsToEnd.step (h : ReadsToEnd n s') (hstep : s.step e = some (s', o))
    (he : e.own = true ∨ e = .read n) (hclosed : s'.closed = s.closed) : ReadsToEnd n s := by
  obtain ⟨tr, s1, hrun, hreads, e', he', htold⟩ := h
  refine ⟨[⟨s, e, o⟩] ++ tr, s1, (Run.start.next hstep).append hrun, fun e1 h1 => ?_, e',
    mem_append_right _ he', htold⟩
  rcases mem_append.mp h1 with hnew | hold
  · cases mem_singleton.mp hnew
    exact ⟨he, rfl⟩
  · rw [← hclosed]
    exact hreads e1 hold

theorem ReadsToEnd.of_reads {handed : Octets} (hn : n ≠ 0) (h : s.Stage body handed)
    (hcaller : s.caller.Reads) : ReadsToEnd n s := by
  induction hk : s.caller.supply.work using Nat.strongRecOn generalizing s handed with
  | ind k ih =>
    have hreads : ∃ r, s.step (.read n) = some r := by
      cases hwrapper : s.caller with
      | replaying | exhausted => exact ⟨_, by simp only [AwaitState.step, hn, if_false, hwrapper]; rfl⟩
      | waiting | pending =>
        rw [hwrapper] at hcaller
        exact hcaller.elim
    obtain ⟨⟨s', o⟩, hstep⟩ := hreads
    have hstage := h.step (AwaitState.step_cases hstep)
    obtain ⟨data, ending, supply, rfl, hclosed, -, -, hcaller', -, -, hsame, hgives⟩ :=
      h.read (AwaitState.step_cases hstep)
    cases ending with
    | some x => exact .told hstep (.inr rfl) rfl
    | none =>
      have hless := hgives.work rfl
      rw [hsame hcaller, hk] at hless
      exact (ih _ hless hstage hcaller' rfl).step hstep (.inr rfl) hclosed

theorem ReadsToEnd.of_stage {handed : Octets} (hn : n ≠ 0)
    (h : s.Stage body handed) (hcaller : s.caller ≠ .waiting) : ReadsToEnd n s := by
  induction hk : s.left using Nat.strongRecOn generalizing s handed with
  | ind k ih =>
    by_cases hscanner : s.scanner = .finished
    · cases hchannel : s.channel with
      | none =>
        cases h with
        | awaiting _ _ _ h =>
          rw [AwaitState.Holds, hchannel, Option.elim_none, hscanner] at h
          exact h.elim
        | reading hreads hchannel hscanner hbytes hending =>
          exact .of_reads hn (.reading hreads hchannel hscanner hbytes hending) hreads
      | some result =>
        have hpending : s.caller = .pending := by
          cases h with
          | awaiting hwaits => exact hwaits.resolve_left hcaller
          | reading _ hnone => cases hchannel.symm.trans hnone
        have hstep : s.step (.read n) =
            some ({ s with channel := none }.replay n result.consumed result.reader) := by
          simp only [AwaitState.step, hn, if_false, hpending, hchannel]
        obtain ⟨data, ending, -, -, hclosed, -, -, hreads, -⟩ := h.read (AwaitState.step_cases hstep)
        exact (ReadsToEnd.of_reads hn (h.step (AwaitState.step_cases hstep)) hreads).step hstep
          (.inr rfl) hclosed
    · obtain ⟨e, s', o, hown, hstep, hcaller', hclosed⟩ := h.goes hscanner
      have hless := (AwaitState.step_cases hstep).left
      rw [hown, if_pos rfl] at hless
      have hstage := h.step (AwaitState.step_cases hstep)
      exact (ih s'.left (by omega) hstage (hcaller' ▸ hcaller) rfl).step hstep (.inl hown) hclosed

end Reads

/-- What holds after any run of the call, the reads and the close. -/
structure Lossless (body : Body) (tr : AwaitTrace) (s : AwaitState) : Prop where
  /-- The reads return the body from its first byte. -/
  fromFirst : handed tr <+: body.bytes
  /-- Their end is that of the body, behind its last byte. -/
  atEnd : ∀ e ∈ tr, e.before.closed = false → ∀ data x, e.output = .read data (some x) →
    handed tr = body.bytes ∧ x = body.ending
  /-- Reading on gives the rest and the end. -/
  toEnd : s.caller ≠ .waiting → s.closed = false → ∀ n, n ≠ 0 →
    ∃ tr' s', Run AwaitState.step s tr' s' ∧ ReadsOn n false tr' ∧ handed (tr ++ tr') = body.bytes ∧
      ∃ e ∈ tr', ∃ data, e.output = .read data (some body.ending)
  /-- The flag of the event says that a `data:` line has been read. -/
  event : ∀ e ∈ tr, ∀ timedOut, e.output = .returned true timedOut → timedOut = false ∧
    ∃ result, e.before.channel = some result ∧ HasEvent result.consumed ∧
      result.consumed <+: body.bytes
  /-- Without a timeout it says whether the body has such a line. -/
  decided : givesUp 0 body.reads = false →
    ∀ e ∈ tr, ∀ gotEvent, e.output = .returned gotEvent false →
      (gotEvent = true ↔ HasEvent body.bytes)
  /-- Blank lines, comments and what has no newline behind it never set it. -/
  ignored : (∀ before line after, body.bytes = before ++ line ++ newline :: after →
      Begins newline before → newline ∉ line → IgnoredLine (line ++ [newline])) →
    ∀ e ∈ tr, ∀ timedOut, e.output ≠ .returned true timedOut
  /-- The goroutine is never held up by the others. -/
  goes : s.scanner ≠ .finished → ∃ e s' o, e.own = true ∧ s.step e = some (s', o)
  /-- It ends after as many steps as are left to it. -/
  ends : ∀ tr' s', Run AwaitState.step s tr' s' →
    tr'.countP (fun e => e.input.own) + s'.left ≤ s.left
  /-- When the body is closed, a read and the send are left. -/
  closed : s.closed = true → s.left ≤ 2

/-- Whatever the order of the reads, the close and the deadline, no byte is lost or invented. -/
theorem awaitFirstStreamEvent_lossless (body : Body) {tr : AwaitTrace} {s : AwaitState}
    (h : Run AwaitState.step (AwaitState.start body) tr s) : Lossless body tr s := by
  have hstage := awaited_stage h
  refine ⟨hstage.handed_le, fun e he hopen data x ho => awaited_ended h he hopen ho, ?_, ?_, ?_, ?_,
    fun hscanner => ?_, fun tr' s' hrun => run_left hrun, fun hclosed => ?_⟩
  · intro hcaller hopen n hn
    obtain ⟨tr', s', hrun, hreads, e, he, data, x, ho⟩ := ReadsToEnd.of_stage hn hstage hcaller
    rw [hopen] at hreads
    obtain ⟨hbytes, rfl⟩ :=
      awaited_ended (h.append hrun) (mem_append_right tr he) (hreads e he).2 ho
    exact ⟨tr', s', hrun, hreads, hbytes, e, he, data, ho⟩
  · exact fun e he timedOut ho => (awaited_flags h he ho).1 rfl
  · exact fun hgoes e he gotEvent ho => (awaited_flags h he ho).2 rfl hgoes
  · intro hignored e he timedOut ho
    obtain ⟨-, result, -, hevent, rest, heq⟩ := (awaited_flags h he ho).1 rfl
    obtain ⟨before, line, after, hline, hbegins, hended, hstarts⟩ := hevent.append rest
    have hfalse := (hignored before line after (heq ▸ hline) hbegins hended).startsData_eq
    cases hfalse.symm.trans hstarts
  · obtain ⟨e, s', o, hown, hstep, -⟩ := hstage.goes hscanner
    exact ⟨e, s', o, hown, hstep⟩
  · unfold AwaitState.left
    cases s.scanner with
    | scanning => simp [Scanner.left, hclosed]
    | sending => exact Nat.le_succ 1
    | finished => exact Nat.zero_le 2

/-- `: w`, `data:`, then an unfinished line; the timer fires after the first read. -/
def keptWaiting : Body :=
  ⟨[[0x3A, 0x20], [0x77, 0x0A, 0x64, 0x61]], [0x74, 0x61, 0x3A, 0x0A, 0x78], true⟩

theorem keptWaiting_lossless : ∃ tr s, Run AwaitState.step (AwaitState.start keptWaiting) tr s ∧
      (∃ e ∈ tr, e.output = .returned false true) ∧ s.left = 0 ∧
      handed tr <+: keptWaiting.bytes ∧ handed tr = [0x3A, 0x20, 0x77, 0x0A] := by
  refine exists_run
    [.readReturns, .timeout, .readReturns, .readReturns, .send, .read 3, .read 1] rfl fun hrun => ?_
  have hfirst := (awaitFirstStreamEvent_lossless _ hrun).fromFirst
  exact ⟨⟨_, mem_cons_of_mem _ mem_cons_self, rfl⟩, rfl, hfirst, rfl⟩

end CalvoProxy
