import CalvoProxy.Lib.GoMap
import CalvoProxy.Lib.Int64
import CalvoProxy.Lib.Machine

/-!
# The quota ledger

The in-memory ledger of `router_quota.go`. A bucket is an object with an identity, an index into
`heap`: a hold keeps pointing to it after the map has dropped it. An operation runs under the mutex,
so it is one step; the order of an iteration over a Go map is an argument.
-/

namespace CalvoProxy

abbrev Time := Int

abbrev Duration := Int

namespace Time

def isZero (t : Time) : Bool := t == 0

def after (t u : Time) : Bool := decide (u < t)

def before (t u : Time) : Bool := decide (t < u)

def minute : Duration := 60000000000

/-- `t.Truncate(time.Minute)`. -/
def truncateMinute (t : Time) : Time := t - t % minute

end Time

/-- The named dimensions; a provider may bring its own. -/
inductive QuotaDimension
  | requests
  | tokens
  | other (text : String)
deriving DecidableEq, Repr

inductive QuotaWindow
  | minute
  | hour
  | day
  | other (text : String)
deriving DecidableEq, Repr

inductive QuotaSource
  | providerHeader
  | providerBody
  | config
  | localEstimate
  | other (text : String)
deriving DecidableEq, Repr

inductive QuotaConfidence
  | authoritative
  | estimated
  | other (text : String)
deriving DecidableEq, Repr

def QuotaDimension.text : QuotaDimension → String
  | .requests => "requests"
  | .tokens => "tokens"
  | .other text => text

def QuotaWindow.text : QuotaWindow → String
  | .minute => "minute"
  | .hour => "hour"
  | .day => "day"
  | .other text => text

structure QuotaBucketKey where
  provider : String
  scope : String
  modelOrPool : String
  dimension : QuotaDimension
  window : QuotaWindow
deriving DecidableEq, Repr

/-- The provider's view of a bucket. A zero `resetAt` means no known expiry. -/
structure QuotaObservation where
  limit : Int64
  remaining : Int64
  resetAt : Time
  source : QuotaSource
  confidence : QuotaConfidence
  observedAt : Time
deriving DecidableEq

structure QuotaReservation where
  key : QuotaBucketKey
  cost : Int64
deriving DecidableEq

/-- `actual` counts only without an observation. -/
structure QuotaSettlement where
  key : QuotaBucketKey
  actual : Int64
  observation : Option QuotaObservation
deriving DecidableEq

structure QuotaBucket where
  observation : QuotaObservation
  reserved : Int64
  probeSettled : Bool
deriving DecidableEq

abbrev Addr := Nat

structure QuotaHold where
  key : QuotaBucketKey
  cost : Int64
  bucket : Option Addr
deriving DecidableEq

structure QuotaTicketState where
  holds : GoMap QuotaBucketKey QuotaHold
deriving DecidableEq

abbrev LedgerId := Nat

/-- The zero ticket has no ledger and the id `0`. -/
structure QuotaTicket where
  ledger : Option LedgerId
  id : UInt64
deriving DecidableEq

def QuotaTicket.zero : QuotaTicket := ⟨none, 0⟩

def QuotaTicket.valid (t : QuotaTicket) : Bool := t.ledger.isSome && t.id != 0

structure QuotaSnapshot where
  observation : QuotaObservation
  key : QuotaBucketKey
  reserved : Int64
  available : Int64
  probeSettled : Bool
deriving DecidableEq

structure QuotaLedger where
  self : LedgerId
  heap : List QuotaBucket
  buckets : GoMap QuotaBucketKey Addr
  tickets : GoMap UInt64 QuotaTicketState
  nextTicketID : UInt64
deriving DecidableEq

namespace QuotaLedger

def new (self : LedgerId) : QuotaLedger := ⟨self, [], ∅, ∅, 0⟩

variable (l : QuotaLedger) (key : QuotaBucketKey)

def validQuotaKey : Bool :=
  key.provider != "" && key.scope != "" && key.modelOrPool != "" &&
    key.dimension.text != "" && key.window.text != ""

def minInt64 (left right : Int64) : Int64 := if left < right then left else right

def quotaKeyString : String :=
  key.provider ++ "\x00" ++ key.scope ++ "\x00" ++ key.modelOrPool ++ "\x00" ++
    key.dimension.text ++ "\x00" ++ key.window.text

def expired (o : QuotaObservation) (now : Time) : Bool :=
  !Time.isZero o.resetAt && !Time.after o.resetAt now

def normaliseQuotaObservation (o : QuotaObservation) (now : Time) : QuotaObservation :=
  let o := if Time.isZero o.observedAt then { o with observedAt := now } else o
  if o.limit < o.remaining then { o with remaining := o.limit } else o

def bucketOf : Option QuotaBucket :=
  (l.buckets.lookup key).bind fun a => l.heap[a]?

def purgeExpiredLocked (now : Time) : QuotaLedger :=
  { l with buckets := l.buckets.keep fun _ a =>
      match l.heap[a]? with
      | some b => !expired b.observation now
      | none => true }

def storeObservation (o : QuotaObservation) : QuotaLedger :=
  match l.buckets.lookup key with
  | some a => { l with heap := l.heap.modify a fun b => { b with observation := o } }
  | none =>
    { l with
      heap := l.heap ++ [⟨o, 0, false⟩]
      buckets := l.buckets.insert key l.heap.length }

/-- Sum the costs of each key; `none` for an invalid key or cost, or an overflow. -/
def aggregate (amounts : GoMap QuotaBucketKey Int64) :
    List QuotaReservation → Option (GoMap QuotaBucketKey Int64)
  | [] => some amounts
  | r :: rs =>
    if !validQuotaKey r.key || r.cost < 0 then none
    else if r.cost = 0 then aggregate amounts rs
    else
      let sum := (amounts.lookup r.key).getD 0 + r.cost
      if sum < 0 then none else aggregate (amounts.insert r.key sum) rs

def aggregateReservations (reservations : List QuotaReservation) :
    Option (GoMap QuotaBucketKey Int64) :=
  aggregate ∅ reservations

/-! ## Observing and reading -/

/-- `Observe`; an expired observation is discarded together with the bucket. -/
def observe (o : QuotaObservation) (now : Time) : QuotaLedger × Bool :=
  if !validQuotaKey key || o.limit < 0 || o.remaining < 0 then (l, false)
  else
    let o := if Time.isZero o.observedAt then { o with observedAt := now } else o
    if expired o now then
      let l := l.purgeExpiredLocked now
      ({ l with buckets := l.buckets.erase key }, false)
    else
      let o := if o.limit < o.remaining then { o with remaining := o.limit } else o
      ((l.purgeExpiredLocked now).storeObservation key o, true)

def staleMinute (o : QuotaObservation) (now : Time) : Bool :=
  key.window = .minute && Time.isZero o.resetAt && !Time.isZero o.observedAt &&
    Time.after (Time.truncateMinute now) (Time.truncateMinute o.observedAt)

def snapshot (now : Time) : QuotaLedger × Option QuotaSnapshot :=
  let l := l.purgeExpiredLocked now
  match l.bucketOf key with
  | none => (l, none)
  | some b =>
    if staleMinute key b.observation now then
      ({ l with buckets := l.buckets.erase key }, none)
    else
      let available := b.observation.remaining - b.reserved
      let available := if available < 0 then 0 else available
      (l, some ⟨b.observation, key, b.reserved, available, b.probeSettled⟩)

/-- `Keys`: those that have not expired, ordered by their text. -/
def keys (now : Time) : QuotaLedger × List QuotaBucketKey :=
  let l := l.purgeExpiredLocked now
  (l, l.buckets.keys.insertionSort fun x y => quotaKeyString x ≤ quotaKeyString y)

/-- `Reservations`: what an active ticket of this ledger holds. -/
def reservations (t : QuotaTicket) : List QuotaReservation :=
  if t.ledger ≠ some l.self ∨ t.id = 0 then []
  else
    match l.tickets.lookup t.id with
    | none => []
    | some state =>
      (state.holds.entries.map fun e => (⟨e.1, e.2.cost⟩ : QuotaReservation)).insertionSort
        fun x y => quotaKeyString x.key ≤ quotaKeyString y.key

/-- Draw ids until one is neither `0` nor taken; with `n` active tickets the loop of the source ends
within `n + 2` rounds or never, which is `none`. -/
def drawTicketID (tickets : GoMap UInt64 QuotaTicketState) : Nat → UInt64 → Option UInt64
  | 0, _ => none
  | fuel + 1, next =>
    let next := next + 1
    if next = 0 then drawTicketID tickets fuel next
    else if (tickets.lookup next).isSome then drawTicketID tickets fuel next
    else some next

def newTicketIDLocked : Option UInt64 :=
  drawTicketID l.tickets (l.tickets.entries.length + 2) l.nextTicketID

/-- The test of `ReserveAll` for a key: a missing bucket imposes no limit, an estimated one lets one
probe through. -/
def admits (cost : Int64) : Bool :=
  match l.bucketOf key with
  | none => true
  | some b =>
    decide (cost ≤ b.observation.remaining - b.reserved) ||
      (b.observation.confidence = .estimated && b.reserved == 0 && !b.probeSettled)

def reserveOne (cost : Int64) : QuotaLedger :=
  match l.buckets.lookup key with
  | some a => { l with heap := l.heap.modify a fun b => { b with reserved := b.reserved + cost } }
  | none => l

def reserveHolds (l : QuotaLedger) (holds : GoMap QuotaBucketKey QuotaHold) :
    List (Sigma fun _ : QuotaBucketKey => Int64) → QuotaLedger × GoMap QuotaBucketKey QuotaHold
  | [] => (l, holds)
  | e :: es =>
    (l.reserveOne e.1 e.2).reserveHolds (holds.insert e.1 ⟨e.1, e.2, l.buckets.lookup e.1⟩) es

/-- `ReserveAll`; the result is `none` when the search for a ticket id never ends. -/
def reserveAll (reservations : List QuotaReservation) (now : Time)
    (order : List QuotaBucketKey) : Option (QuotaLedger × Option QuotaTicket) :=
  match aggregateReservations reservations with
  | none => some (l, none)
  | some amounts =>
    let l := l.purgeExpiredLocked now
    let visits := amounts.range order
    if visits.all fun e => l.admits e.1 e.2 then
      let r := l.reserveHolds ∅ visits
      match r.1.newTicketIDLocked with
      | none => none
      | some id =>
        some ({ r.1 with
          nextTicketID := id
          tickets := r.1.tickets.insert id ⟨r.2⟩ }, some ⟨some l.self, id⟩)
    else some (l, none)

/-! ## Consuming a ticket -/

/-- Apply `f` to the object a hold points to, when it points to one. -/
def updateBucket (bucket : Option Addr) (f : QuotaBucket → QuotaBucket) : QuotaLedger :=
  match bucket with
  | some a => { l with heap := l.heap.modify a f }
  | none => l

def unreserve (cost : Int64) (b : QuotaBucket) : QuotaBucket :=
  { b with reserved := b.reserved - minInt64 b.reserved cost }

def releaseHoldsLocked (l : QuotaLedger) :
    List (Sigma fun _ : QuotaBucketKey => QuotaHold) → QuotaLedger
  | [] => l
  | e :: es => (l.updateBucket e.2.bucket (unreserve e.2.cost)).releaseHoldsLocked es

/-- The ticket was made by this ledger; it may be used up or forged. -/
def owns (t : QuotaTicket) : Bool := t.ledger = some l.self && t.id != 0

def release (t : QuotaTicket) (now : Time) (order : List QuotaBucketKey) : QuotaLedger × Bool :=
  if !l.owns t then (l, false)
  else
    let l := l.purgeExpiredLocked now
    match l.tickets.lookup t.id with
    | none => (l, false)
    | some state =>
      ({ l with tickets := l.tickets.erase t.id }.releaseHoldsLocked (state.holds.range order), true)

def settlementsByKey (byKey : GoMap QuotaBucketKey QuotaSettlement) :
    List QuotaSettlement → Option (GoMap QuotaBucketKey QuotaSettlement)
  | [] => some byKey
  | s :: ss =>
    if !validQuotaKey s.key || s.actual < 0 then none
    else if (byKey.lookup s.key).isSome then none
    else if s.observation.any fun o => o.limit < 0 || o.remaining < 0 then none
    else settlementsByKey (byKey.insert s.key s) ss

/-- The charge of a hold when the provider did not report its remaining quota. -/
def actualOf (byKey : GoMap QuotaBucketKey QuotaSettlement) (key : QuotaBucketKey)
    (hold : QuotaHold) : Int64 :=
  match byKey.lookup key with
  | some s => s.actual
  | none => hold.cost

def charge (actual : Int64) (b : QuotaBucket) : QuotaBucket :=
  { b with observation := { b.observation with
      remaining := b.observation.remaining - minInt64 b.observation.remaining actual } }

/-- Take the hold out of its bucket and mark the bucket's probe as spent. -/
def settleBucket (cost : Int64) (b : QuotaBucket) : QuotaBucket :=
  { unreserve cost b with probeSettled := true }

def settleHold (byKey : GoMap QuotaBucketKey QuotaSettlement) (now : Time)
    (key : QuotaBucketKey) (hold : QuotaHold) : QuotaLedger :=
  let l := l.updateBucket hold.bucket (settleBucket hold.cost)
  match (byKey.lookup key).bind (·.observation) with
  | some o =>
    let o := normaliseQuotaObservation o now
    if expired o now then { l with buckets := l.buckets.erase key }
    else l.storeObservation key o
  | none => l.updateBucket hold.bucket (charge (actualOf byKey key hold))

def settleHolds (l : QuotaLedger) (byKey : GoMap QuotaBucketKey QuotaSettlement) (now : Time) :
    List (Sigma fun _ : QuotaBucketKey => QuotaHold) → QuotaLedger
  | [] => l
  | e :: es => (l.settleHold byKey now e.1 e.2).settleHolds byKey now es

def reconcile (t : QuotaTicket) (settlements : List QuotaSettlement)
    (now : Time) (order : List QuotaBucketKey) : QuotaLedger × Bool :=
  if !l.owns t then (l, false)
  else
    match settlementsByKey ∅ settlements with
    | none => (l, false)
    | some byKey =>
      let l := l.purgeExpiredLocked now
      match l.tickets.lookup t.id with
      | none => (l, false)
      | some state =>
        if byKey.keys.all fun key => (state.holds.lookup key).isSome then
          ({ l with tickets := l.tickets.erase t.id }.settleHolds byKey now
            (state.holds.range order), true)
        else (l, false)

/-! ## The ledger as a machine -/

inductive Op
  | observe (key : QuotaBucketKey) (o : QuotaObservation) (now : Time)
  | snapshot (key : QuotaBucketKey) (now : Time)
  | keys (now : Time)
  | reserveAll (reservations : List QuotaReservation) (now : Time) (order : List QuotaBucketKey)
  | release (t : QuotaTicket) (now : Time) (order : List QuotaBucketKey)
  | reconcile (t : QuotaTicket) (settlements : List QuotaSettlement) (now : Time)
      (order : List QuotaBucketKey)

def Op.names : Op → List QuotaBucketKey
  | .observe key _ _ => [key]
  | .snapshot key _ => [key]
  | .reserveAll rs _ _ => rs.map QuotaReservation.key
  | _ => []

def Op.uses : Op → Option QuotaTicket
  | .release t _ _ => some t
  | .reconcile t _ _ _ => some t
  | _ => none

def Op.now : Op → Time
  | .observe _ _ now => now
  | .snapshot _ now => now
  | .keys now => now
  | .reserveAll _ now _ => now
  | .release _ now _ => now
  | .reconcile _ _ now _ => now

inductive Res
  | done (ok : Bool)
  | snapshot (s : Option QuotaSnapshot)
  | keys (ks : List QuotaBucketKey)
  | ticket (t : Option QuotaTicket)
deriving DecidableEq

def step : Op → Option (QuotaLedger × Res)
  | .observe key o now =>
    let r := l.observe key o now
    some (r.1, .done r.2)
  | .snapshot key now =>
    let r := l.snapshot key now
    some (r.1, .snapshot r.2)
  | .keys now =>
    let r := l.keys now
    some (r.1, .keys r.2)
  | .reserveAll reservations now order =>
    (l.reserveAll reservations now order).map fun r => (r.1, .ticket r.2)
  | .release t now order =>
    let r := l.release t now order
    some (r.1, .done r.2)
  | .reconcile t settlements now order =>
    let r := l.reconcile t settlements now order
    some (r.1, .done r.2)

end QuotaLedger

end CalvoProxy
