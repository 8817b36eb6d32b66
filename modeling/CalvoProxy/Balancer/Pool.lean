import Mathlib.Algebra.Ring.Int.Defs
import CalvoProxy.Lib.Machine

/-!
# The load balancers

The `LoadBalancer` of `cmd/lb/main.go` and that of `cmd/run/main.go`, which also replaces a backend
that has failed too often. Requests, probes and drains are parties with a phase; a step is a read or
write of one shared cell, or a section under the pool's lock.
-/

namespace CalvoProxy

inductive BalancerCommand
  | lb
  | run
deriving DecidableEq, Repr

/-- `failures` and `replacing` are fields of `cmd/run` only. -/
structure Backend where
  host : String
  healthy : Bool
  connections : Int32
  failures : Nat
  replacing : Bool
deriving DecidableEq, Repr

namespace Backend

def maxFailures : Nat := 3

def fresh (host : String) : Backend := ⟨host, true, 0, 0, false⟩

def setHealthy (c : BalancerCommand) (h : Bool) (b : Backend) : Backend :=
  match c with
  | .lb => { b with healthy := h }
  | .run => { b with healthy := h, failures := if h then 0 else b.failures + 1 }

def shouldReplace (b : Backend) : Bool :=
  !b.healthy && decide (maxFailures ≤ b.failures) && !b.replacing

def setReplacing (b : Backend) : Backend := { b with replacing := true }

def incConn (b : Backend) : Backend := { b with connections := b.connections + 1 }

def decConn (b : Backend) : Backend := { b with connections := b.connections - 1 }

@[simp] theorem host_setHealthy (c : BalancerCommand) (h : Bool) (b : Backend) :
    (b.setHealthy c h).host = b.host := by cases c <;> rfl

@[simp] theorem connections_setHealthy (c : BalancerCommand) (h : Bool) (b : Backend) :
    (b.setHealthy c h).connections = b.connections := by cases c <;> rfl

@[simp] theorem healthy_setHealthy (c : BalancerCommand) (h : Bool) (b : Backend) :
    (b.setHealthy c h).healthy = h := by cases c <;> rfl

end Backend

/-- A call of `ServeHTTP`. Backends are named by their place in the heap. -/
inductive ProxiedRequest
  /-- inside `NextBackend`, with this many backends still to look at -/
  | scanning (left : Nat)
  /-- `NextBackend` has returned this backend, and `incConn` is still to come -/
  | picked (x : Nat)
  /-- between `incConn` and `decConn` -/
  | counted (x : Nat)
  | refused
  | served
deriving DecidableEq, Repr

def ProxiedRequest.backend : ProxiedRequest → Option Nat
  | .picked x | .counted x => some x
  | .scanning _ | .refused | .served => none

/-- The goroutine of `HealthCheck` for a backend. -/
inductive HealthProbe
  | probing (x : Nat)
  /-- the answer is there, and `setHealthy` still to come -/
  | probed (x : Nat) (healthy : Bool)
  /-- `cmd/run`: before `shouldReplace` -/
  | recorded (x : Nat)
  /-- `cmd/run`: before `markReplacing` -/
  | condemned (x : Nat)
  | finished
deriving DecidableEq, Repr

inductive DrainPhase
  | called
  | found (x : Nat)
  /-- in the loop that waits for the connections to end -/
  | draining (x : Nat) (deadline : Int)
  /-- after the loop, before `RemoveBackend` -/
  | leaving (x : Nat)
  /-- returned after `RemoveBackend` -/
  | removed (x : Nat)
  /-- returned because no backend has the address -/
  | missed
deriving DecidableEq, Repr

def DrainPhase.marked : DrainPhase → Option Nat
  | .draining x _ | .leaving x | .removed x => some x
  | .called | .found _ | .missed => none

structure Drain where
  addr : String
  timeout : Int
  phase : DrainPhase
deriving DecidableEq, Repr

/-- `heap` holds every backend ever added, `pool` is the field `backends`. -/
structure LoadBalancer where
  heap : List Backend
  pool : List Nat
  rr : UInt32
  requests : List ProxiedRequest
  probes : List HealthProbe
  drains : List Drain
deriving DecidableEq, Repr

/-- A call, or a step of the request, probe or drain with this number. -/
inductive BalancerAction
  /-- `AddBackend`, with the host that `url.Parse` finds in the address -/
  | add (host : Option String)
  | serveHTTP
  | serve (r : Nat)
  | healthCheck
  /-- `healthy` is the answer of the backend when the step is the probe itself -/
  | check (p : Nat) (healthy : Bool)
  | drainBackend (addr : String) (timeout : Int)
  | drain (d : Nat) (now : Int)
deriving DecidableEq, Repr

inductive BalancerNote
  | quiet
  /-- `NextBackend` returns this backend to the request -/
  | picked (r x : Nat)
  /-- the drain has set this backend to unhealthy -/
  | marked (d x : Nat)
  /-- the drain of this backend has called `RemoveBackend` -/
  | removed (d x : Nat)
deriving DecidableEq, Repr

namespace LoadBalancer

/-- The pool after `AddBackend` of each of these hosts to `NewLoadBalancer()`. -/
def start (hosts : List String) : LoadBalancer :=
  ⟨hosts.map Backend.fresh, List.range hosts.length, 0, [], [], []⟩

variable (s : LoadBalancer)

def host (x : Nat) : Option String := s.heap[x]?.map (·.host)

def conns (x : Nat) : Option Int32 := s.heap[x]?.map (·.connections)

def hasHost (addr : String) (x : Nat) : Bool := s.host x == some addr

def isHealthy (x : Nat) : Bool := s.heap[x]?.any (·.healthy)

def alter (x : Nat) (f : Backend → Backend) : LoadBalancer :=
  { s with heap := s.heap.modify x f }

def readLocked : Bool :=
  s.requests.any fun q => match q with
    | .scanning _ => true
    | _ => false

def addBackend (host : String) : LoadBalancer :=
  { s with heap := s.heap ++ [Backend.fresh host], pool := s.pool ++ [s.heap.length] }

def removeBackend (addr : String) : LoadBalancer :=
  { s with pool := s.pool.eraseP (s.hasHost addr) }

def setRequest (r : Nat) (q : ProxiedRequest) : LoadBalancer :=
  { s with requests := s.requests.set r q }

def setProbe (p : Nat) (q : HealthProbe) : LoadBalancer :=
  { s with probes := s.probes.set p q }

def setPhase (d : Nat) (phase : DrainPhase) : LoadBalancer :=
  { s with drains := s.drains.modify d fun D => { D with phase } }

/-- A step of `ServeHTTP`, or one iteration of `NextBackend`; `none` when nothing is left to do. -/
def serve (r : Nat) : Option (LoadBalancer × BalancerNote) :=
  match s.requests[r]? with
  | some (.scanning 0) => some (s.setRequest r .refused, .quiet)
  | some (.scanning (left + 1)) =>
    let rr := s.rr + 1
    match s.pool[rr.toNat % s.pool.length]? with
    | none => none
    | some x =>
      if s.isHealthy x then some ({ s with rr }.setRequest r (.picked x), .picked r x)
      else some ({ s with rr }.setRequest r (.scanning left), .quiet)
  | some (.picked x) => some ((s.alter x Backend.incConn).setRequest r (.counted x), .quiet)
  | some (.counted x) => some ((s.alter x Backend.decConn).setRequest r .served, .quiet)
  | some .refused | some .served | none => none

/-- `replaceBackend` drains the failed backend; an `add` of its own puts the new one into the
pool. -/
def replaceBackend (addr : String) : LoadBalancer :=
  { s with drains := s.drains ++ [⟨addr, 10 * 10 ^ 9, .called⟩] }

def check (c : BalancerCommand) (s : LoadBalancer) (p : Nat) (healthy : Bool) :
    Option (LoadBalancer × BalancerNote) :=
  match s.probes[p]? with
  | some (.probing x) => some (s.setProbe p (.probed x healthy), .quiet)
  | some (.probed x healthy) =>
    some ((s.alter x (Backend.setHealthy c healthy)).setProbe p (match c with
        | .lb => .finished
        | .run => .recorded x), .quiet)
  | some (.recorded x) =>
    some (s.setProbe p
      (if s.heap[x]?.any Backend.shouldReplace then .condemned x else .finished), .quiet)
  | some (.condemned x) =>
    match s.heap[x]? with
    | none => none
    | some b =>
      if b.replacing then some (s.setProbe p .finished, .quiet)
      else
        some (((s.alter x Backend.setReplacing).replaceBackend b.host).setProbe p .finished, .quiet)
  | some .finished | none => none

/-- A step of `DrainBackend`; the sleep between two looks is none. -/
def drain (c : BalancerCommand) (s : LoadBalancer) (d : Nat) (now : Int) :
    Option (LoadBalancer × BalancerNote) :=
  match s.drains[d]? with
  | none => none
  | some D =>
    match D.phase with
    | .called =>
      match s.pool.find? (s.hasHost D.addr) with
      | none => some (s.setPhase d .missed, .quiet)
      | some x => some (s.setPhase d (.found x), .quiet)
    | .found x =>
      some ((s.alter x (Backend.setHealthy c false)).setPhase d (.draining x (now + D.timeout)),
        .marked d x)
    | .draining x deadline =>
      if now < deadline ∧ s.conns x ≠ some 0 then some (s, .quiet)
      else some (s.setPhase d (.leaving x), .quiet)
    | .leaving x =>
      if s.readLocked then none
      else some ((s.removeBackend D.addr).setPhase d (.removed x), .removed d x)
    | .removed _ | .missed => none

def step (c : BalancerCommand) (s : LoadBalancer) :
    BalancerAction → Option (LoadBalancer × BalancerNote)
  | .add none => some (s, .quiet)
  | .add (some host) => if s.readLocked then none else some (s.addBackend host, .quiet)
  | .serveHTTP => some ({ s with requests := s.requests ++ [.scanning s.pool.length] }, .quiet)
  | .serve r => s.serve r
  | .healthCheck => some ({ s with probes := s.probes ++ s.pool.map .probing }, .quiet)
  | .check p healthy => s.check c p healthy
  | .drainBackend addr timeout =>
    some ({ s with drains := s.drains ++ [⟨addr, timeout, .called⟩] }, .quiet)
  | .drain d now => s.drain c d now

end LoadBalancer

end CalvoProxy
