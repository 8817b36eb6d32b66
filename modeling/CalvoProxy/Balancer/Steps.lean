import CalvoProxy.Balancer.Pool

/-!
# The steps of a load balancer

What a party can do, as a relation between the states before and after (`Steps`).
-/

namespace CalvoProxy

open List Backend

variable {addr host : String} {r d : Nat} {o : BalancerNote} {i : BalancerAction}

namespace LoadBalancer

def Drained (s : LoadBalancer) (x : Nat) : Prop := ∃ D ∈ s.drains, D.phase.marked = some x

variable {c : BalancerCommand} {s s' : LoadBalancer} {x : Nat}

/-! ## Reading the heap -/

theorem host_valid (h : s.host x = some addr) : x < s.heap.length := by
  obtain ⟨b, hb, _⟩ := Option.map_eq_some_iff.mp h
  exact (List.getElem?_eq_some_iff.mp hb).1

theorem hasHost_iff : s.hasHost addr x = true ↔ s.host x = some addr := by
  simp [hasHost]

theorem getElem?_alter (f : Backend → Backend) (x y : Nat) :
    (s.alter x f).heap[y]? = s.heap[y]?.map fun b => if x = y then f b else b :=
  List.getElem?_modify f x s.heap y

theorem host_alter {f : Backend → Backend} (hf : ∀ b, (f b).host = b.host) (x y : Nat) :
    (s.alter x f).host y = s.host y := by
  rw [host, getElem?_alter, Option.map_map, host]
  congr 1
  funext b
  show (if x = y then f b else b).host = b.host
  split
  · exact hf b
  · rfl

theorem hasHost_alter {f : Backend → Backend} (hf : ∀ b, (f b).host = b.host) (x : Nat)
    (addr : String) : (s.alter x f).hasHost addr = s.hasHost addr := by
  funext y
  rw [hasHost, host_alter hf, hasHost]

theorem length_alter (f : Backend → Backend) (x : Nat) :
    (s.alter x f).heap.length = s.heap.length :=
  length_modify f s.heap x

theorem getElem?_addBackend (hx : x < s.heap.length) : (s.addBackend host).heap[x]? = s.heap[x]? :=
  List.getElem?_append_left hx

theorem host_addBackend (hx : x < s.heap.length) : (s.addBackend host).host x = s.host x := by
  rw [LoadBalancer.host, getElem?_addBackend hx, LoadBalancer.host]

inductive Serves (s : LoadBalancer) (r : Nat) : LoadBalancer → BalancerNote → Prop
  | refuses (hq : s.requests[r]? = some (.scanning 0)) : Serves s r (s.setRequest r .refused) .quiet
  | passes {left : Nat} (hq : s.requests[r]? = some (.scanning (left + 1))) :
      Serves s r ({ s with rr := s.rr + 1 }.setRequest r (.scanning left)) .quiet
  | picks {left x : Nat} (hq : s.requests[r]? = some (.scanning (left + 1))) (hpool : x ∈ s.pool)
      (hhealthy : s.isHealthy x = true) :
      Serves s r ({ s with rr := s.rr + 1 }.setRequest r (.picked x)) (.picked r x)
  | counts {x : Nat} (hq : s.requests[r]? = some (.picked x)) :
      Serves s r ((s.alter x incConn).setRequest r (.counted x)) .quiet
  | ends {x : Nat} (hq : s.requests[r]? = some (.counted x)) :
      Serves s r ((s.alter x decConn).setRequest r .served) .quiet

theorem serve_serves (hs : s.serve r = some (s', o)) : Serves s r s' o := by
  unfold serve at hs
  split at hs
  · next hq =>
    cases hs
    exact .refuses hq
  · next left hq =>
    dsimp only at hs
    split at hs
    · cases hs
    next x hx =>
    split at hs
    · next hhealthy =>
      cases hs
      exact .picks hq (mem_of_getElem? hx) hhealthy
    · cases hs
      exact .passes hq
  · next x hq =>
    cases hs
    exact .counts hq
  · next x hq =>
    cases hs
    exact .ends hq
  all_goals cases hs

inductive Checks (c : BalancerCommand) (s : LoadBalancer) (p : Nat) : LoadBalancer → Prop
  | turns (q : HealthProbe) : Checks c s p (s.setProbe p q)
  | records {x : Nat} {healthy : Bool} (hq : s.probes[p]? = some (.probed x healthy))
      (q : HealthProbe) :
      Checks c s p ((s.alter x (setHealthy c healthy)).setProbe p q)
  | replaces (x : Nat) (addr : String) (q : HealthProbe) :
      Checks c s p (((s.alter x setReplacing).replaceBackend addr).setProbe p q)

theorem check_checks {p : Nat} {healthy : Bool} (hs : s.check c p healthy = some (s', o)) :
    Checks c s p s' ∧ o = .quiet := by
  unfold check at hs
  split at hs
  · cases hs
    exact ⟨.turns _, rfl⟩
  · next x healthy hq =>
    cases hs
    exact ⟨.records hq _, rfl⟩
  · cases hs
    exact ⟨.turns _, rfl⟩
  · next x _ =>
    split at hs
    · cases hs
    next b _ =>
    split at hs
    · cases hs
      exact ⟨.turns _, rfl⟩
    · cases hs
      exact ⟨.replaces x b.host _, rfl⟩
  all_goals cases hs

inductive Drains (c : BalancerCommand) (s : LoadBalancer) (d : Nat) :
    LoadBalancer → BalancerNote → Prop
  | misses {D : Drain} (hD : s.drains[d]? = some D) (hphase : D.phase = .called) :
      Drains c s d (s.setPhase d .missed) .quiet
  | finds {D : Drain} {x : Nat} (hD : s.drains[d]? = some D) (hphase : D.phase = .called)
      (hhost : s.host x = some D.addr) : Drains c s d (s.setPhase d (.found x)) .quiet
  | marks {D : Drain} {x : Nat} (hD : s.drains[d]? = some D) (hphase : D.phase = .found x)
      (deadline : Int) :
      Drains c s d ((s.alter x (setHealthy c false)).setPhase d (.draining x deadline))
        (.marked d x)
  | waits : Drains c s d s .quiet
  | leaves {D : Drain} {x : Nat} {deadline : Int} (hD : s.drains[d]? = some D)
      (hphase : D.phase = .draining x deadline) : Drains c s d (s.setPhase d (.leaving x)) .quiet
  | removes {D : Drain} {x : Nat} (hD : s.drains[d]? = some D) (hphase : D.phase = .leaving x)
      (hfree : s.readLocked = false) :
      Drains c s d ((s.removeBackend D.addr).setPhase d (.removed x)) (.removed d x)

theorem drain_drains {now : Int} (hs : s.drain c d now = some (s', o)) : Drains c s d s' o := by
  unfold drain at hs
  split at hs
  · cases hs
  next D hD =>
  split at hs
  · next hphase =>
    split at hs
    · cases hs
      exact .misses hD hphase
    · next x hfind =>
      cases hs
      exact .finds hD hphase (hasHost_iff.mp (List.find?_some hfind))
  · next x hphase =>
    cases hs
    exact .marks hD hphase _
  · next x deadline hphase =>
    split at hs
    · cases hs
      exact .waits
    · cases hs
      exact .leaves hD hphase
  · next x hphase =>
    split at hs
    · cases hs
    · next hfree =>
      cases hs
      exact .removes hD hphase (eq_false_of_ne_true hfree)
  all_goals cases hs

inductive Steps (c : BalancerCommand) (s : LoadBalancer) :
    BalancerAction → LoadBalancer → BalancerNote → Prop
  | rejects : Steps c s (.add none) s .quiet
  | adds {host : String} (hfree : s.readLocked = false) :
      Steps c s (.add (some host)) (s.addBackend host) .quiet
  | arrives :
      Steps c s .serveHTTP { s with requests := s.requests ++ [.scanning s.pool.length] } .quiet
  | serves {r : Nat} {s' : LoadBalancer} {o : BalancerNote} (h : Serves s r s' o) :
      Steps c s (.serve r) s' o
  | asks : Steps c s .healthCheck { s with probes := s.probes ++ s.pool.map .probing } .quiet
  | checks {p : Nat} {healthy : Bool} {s' : LoadBalancer} (h : Checks c s p s') :
      Steps c s (.check p healthy) s' .quiet
  | calls (addr : String) (timeout : Int) : Steps c s (.drainBackend addr timeout)
        { s with drains := s.drains ++ [⟨addr, timeout, .called⟩] } .quiet
  | drains {d : Nat} {now : Int} {s' : LoadBalancer} {o : BalancerNote} (h : Drains c s d s' o) :
      Steps c s (.drain d now) s' o

theorem step_steps (hs : step c s i = some (s', o)) : Steps c s i s' o := by
  cases i with
  | add host =>
    cases host with
    | none =>
      cases hs
      exact .rejects
    | some host =>
      simp only [step] at hs
      split at hs
      · cases hs
      · next hfree =>
        cases hs
        exact .adds (eq_false_of_ne_true hfree)
  | serveHTTP =>
    cases hs
    exact .arrives
  | serve r => exact .serves (serve_serves hs)
  | healthCheck =>
    cases hs
    exact .asks
  | check p healthy =>
    obtain ⟨hchecks, rfl⟩ := check_checks hs
    exact .checks hchecks
  | drainBackend addr timeout =>
    cases hs
    exact .calls addr timeout
  | drain d now => exact .drains (drain_drains hs)

theorem host_step (hs : Steps c s i s' o) (hx : s.host x = some addr) : s'.host x = some addr := by
  cases hs with
  | rejects | arrives | asks | calls => exact hx
  | adds =>
    rw [host_addBackend (host_valid hx)]
    exact hx
  | serves h =>
    cases h with
    | refuses | passes | picks => exact hx
    | @counts y => exact (@host_alter s incConn (fun _ => rfl) y x).trans hx
    | @ends y => exact (@host_alter s decConn (fun _ => rfl) y x).trans hx
  | checks h =>
    cases h with
    | turns => exact hx
    | @records y healthy => exact (host_alter (host_setHealthy c healthy) y x).trans hx
    | replaces y => exact (@host_alter s setReplacing (fun _ => rfl) y x).trans hx
  | drains h =>
    cases h with
    | @marks D y => exact (host_alter (host_setHealthy c false) y x).trans hx
    | misses | finds | waits | leaves | removes => exact hx

theorem Drained.setPhase (h : s.Drained x) {D : Drain} {phase : DrainPhase}
    (hD : s.drains[d]? = some D) (hkeep : D.phase.marked = some x → phase.marked = some x) :
    (s.setPhase d phase).Drained x := by
  obtain ⟨D', hD', hmarked⟩ := h
  obtain ⟨i, hi⟩ := mem_iff_getElem?.mp hD'
  have hget : (s.setPhase d phase).drains[i]? = some (if d = i then { D' with phase } else D') := by
    show (s.drains.modify d _)[i]? = _
    rw [List.getElem?_modify, hi]
    rfl
  refine ⟨_, mem_of_getElem? hget, ?_⟩
  split
  · next heq =>
    subst heq
    rw [hD] at hi
    cases hi
    exact hkeep hmarked
  · exact hmarked

theorem Drained.append (h : s.Drained x) (D : Drain) :
    Drained { s with drains := s.drains ++ [D] } x := by
  obtain ⟨D', hD', hmarked⟩ := h
  exact ⟨D', mem_append_left _ hD', hmarked⟩

theorem Drained.step {i : BalancerAction} {o : BalancerNote} (h : s.Drained x)
    (hs : Steps c s i s' o) : s'.Drained x := by
  cases hs with
  | rejects | adds | arrives | asks => exact h
  | serves hs =>
    cases hs with
    | refuses | passes | picks | counts | ends => exact h
  | checks hs =>
    cases hs with
    | turns | records => exact h
    | replaces y addr q => exact Drained.append (s := s.alter y setReplacing) h _
  | calls addr timeout => exact h.append _
  | drains hs =>
    cases hs with
    | misses hD hphase | finds hD hphase =>
      refine h.setPhase hD fun hm => ?_
      rw [hphase] at hm
      cases hm
    | @marks D y hD hphase =>
      refine Drained.setPhase (s := s.alter y (setHealthy c false)) h hD fun hm => ?_
      rw [hphase] at hm
      cases hm
    | waits => exact h
    | leaves hD hphase =>
      refine h.setPhase hD fun hm => ?_
      rw [hphase] at hm
      exact hm
    | @removes D y hD hphase =>
      refine Drained.setPhase (s := s.removeBackend D.addr) h hD fun hm => ?_
      rw [hphase] at hm
      exact hm

/-! ## What the notes say -/

theorem picked_step (hs : Steps c s i s' (.picked r x)) : x ∈ s.pool ∧ s.isHealthy x = true := by
  cases hs with
  | serves h =>
    cases h with
    | picks _ hpool hhealthy => exact ⟨hpool, hhealthy⟩
  | drains h => cases h

theorem marked_step (hs : Steps c s i s' (.marked d x)) : s'.Drained x := by
  cases hs with
  | serves h => cases h
  | drains h =>
    cases h with
    | @marks D y hD hphase deadline =>
      refine ⟨{ D with phase := .draining x deadline }, mem_of_getElem? (i := d) ?_, rfl⟩
      show (s.drains.modify d _)[d]? = _
      rw [List.getElem?_modify, hD]
      simp

theorem removed_step (hs : Steps c s i s' (.removed d x)) :
    ∃ D ∈ s.drains, D.phase = .leaving x ∧ s'.pool = (s.removeBackend D.addr).pool := by
  cases hs with
  | serves h => cases h
  | drains h =>
    cases h with
    | @removes D y hD hphase => exact ⟨D, mem_of_getElem? hD, hphase, rfl⟩

end LoadBalancer

end CalvoProxy
