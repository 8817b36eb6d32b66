import Mathlib.Algebra.Ring.Nat
import CalvoProxy.Balancer.Steps

/-!
# Draining a backend

`DrainBackend` marks a backend unhealthy, waits for its connections and removes it. A probe answered
before marks it healthy again (`drained_backend_serves_again`), and a request that has just got it
is not counted yet. `Orderly` excludes the two (`draining_stops_traffic`).
-/

namespace CalvoProxy

open List Machine Option Backend

variable {f : Backend → Backend} {p r d : Nat} {phase : DrainPhase} {D : Drain} {host : String}
  {o : BalancerNote}

abbrev BalancerEvent := Event LoadBalancer BalancerAction BalancerNote

def BalancerAction.adds : BalancerAction → Option String
  | .add host => host
  | _ => none

namespace LoadBalancer

/-! ## What draining promises -/

def InFlight (s : LoadBalancer) (x : Nat) : Prop := ∃ q ∈ s.requests, q.backend = some x

/-- After a drain has marked a backend at `a`, `NextBackend` does not return it. -/
def NoLaterPick (a : String) (tr : List BalancerEvent) : Prop :=
  ∀ (i j : Nat) (e e' : BalancerEvent) (d r x : Nat), i < j →
    tr[i]? = some e → tr[j]? = some e' → e.output = .marked d x → e.before.host x = some a →
      e'.output ≠ .picked r x

/-- If the connections of a marked backend at `a` are ever zero before its removal, it leaves the
pool with no request in flight. -/
def RemovedEmpty (c : BalancerCommand) (a : String) (tr : List BalancerEvent) : Prop :=
  ∀ (i j k : Nat) (e e' e'' : BalancerEvent) (d x : Nat), i < j → j ≤ k →
    tr[i]? = some e → tr[j]? = some e' → tr[k]? = some e'' →
    e.output = .marked d x → e.before.host x = some a → e'.before.conns x = some 0 →
    e''.output = .removed d x →
    ¬ e''.before.InFlight x ∧
      ∀ s', step c e''.before e''.input = some (s', .removed d x) → x ∉ s'.pool

/-- Nothing holds the removal up: scans go on, and a drain without connections ends and removes the
backend. -/
structure Proceeds (c : BalancerCommand) (a : String) (s : LoadBalancer) : Prop where
  scans : ∀ r left, s.requests[r]? = some (.scanning left) → (s.serve r).isSome
  leaves : ∀ d D x deadline now, s.drains[d]? = some D → D.phase = .draining x deadline →
    s.conns x = some 0 → s.drain c d now = some (s.setPhase d (.leaving x), .quiet)
  removes : ∀ d D x now, s.drains[d]? = some D → D.phase = .leaving x → s.host x = some a →
    s.readLocked = false → ∃ s', s.drain c d now = some (s', .removed d x) ∧ x ∉ s'.pool

/-- The step keeps the drains of `a` apart from probes and requests: no success is recorded on a
marked backend of the pool, none is marked between the pick and the count of a request, and the
counter does not wrap. -/
def Orderly (a : String) (e : BalancerEvent) : Prop :=
  match e.input with
  | .check p _ => ∀ x, e.before.probes[p]? = some (.probed x true) → e.before.host x = some a →
      x ∈ e.before.pool → ¬ e.before.Drained x
  | .drain d _ => ∀ D x, e.before.drains[d]? = some D → D.phase = .found x → D.addr = a →
      .picked x ∉ e.before.requests
  | .serve r => ∀ x, e.before.requests[r]? = some (.picked x) → e.before.host x = some a →
      e.before.requests.count (.counted x) + 1 < 2 ^ 32
  | _ => True

/-- A request has as many backends to look at as there are, or a backend that is none of those a
drain at `a` has marked before its count. -/
def Fits (a : String) (s : LoadBalancer) : ProxiedRequest → Prop
  | .scanning left => left ≤ s.pool.length
  | .picked x => x < s.heap.length ∧ (s.host x = some a → ¬ s.Drained x)
  | .counted x => x < s.heap.length
  | .refused | .served => True

/-- A drain has found its address, and at `a` what it has marked stays unhealthy in the pool and
what it has removed stays out of it. -/
def Holds (a : String) (s : LoadBalancer) (D : Drain) : Prop :=
  match D.phase with
  | .called | .missed => True
  | .found x => s.host x = some D.addr
  | .draining x _ | .leaving x =>
    s.host x = some D.addr ∧ (D.addr = a → x ∈ s.pool → s.isHealthy x = false)
  | .removed x => s.host x = some D.addr ∧ (D.addr = a → x ∉ s.pool)

/-- What holds while the steps are orderly at `a` and add no backend there. -/
structure Sound (a : String) (s : LoadBalancer) : Prop where
  pool_valid : ∀ x ∈ s.pool, x < s.heap.length
  once : s.pool.countP (s.hasHost a) ≤ 1
  bounded : ∀ x, s.host x = some a → s.requests.count (.counted x) < 2 ^ 32
  requests : ∀ q ∈ s.requests, Fits a s q
  drains : ∀ D ∈ s.drains, Holds a s D

/-- The connections of a backend are the requests counted on it, up to a wrap. -/
def Counted (s : LoadBalancer) : Prop :=
  ∀ x b, s.heap[x]? = some b → b.connections = Int32.ofNat (s.requests.count (.counted x))

variable {a : String} {c : BalancerCommand} {s s' : LoadBalancer} {x : Nat}

theorem host_start (hosts : List String) (x : Nat) : (start hosts).host x = hosts[x]? := by
  simp only [host, start, List.getElem?_map, Option.map_map]
  exact congrFun Option.map_id _

theorem count_range (l : List String) (a : String) :
    (List.range l.length).countP (fun i => l[i]? == some a) = l.count a := by
  have hmap : (List.range l.length).map (l[·]?) = l.map some := by
    apply ext_getElem
    · simp
    · intro i h1 h2
      simp at h2
      simp [h2]
  calc (List.range l.length).countP (fun i => l[i]? == some a)
      = ((List.range l.length).map (l[·]?)).countP (· == some a) := by rw [countP_map]; rfl
    _ = (l.map some).countP (· == some a) := by rw [hmap]
    _ = l.count a := by
      rw [countP_map]
      exact countP_congr fun y _ => by simp

theorem start_sound {hosts : List String} (hone : hosts.count a ≤ 1) : Sound a (start hosts) where
  pool_valid x hx := by simpa [start] using hx
  once := by
    have heq : (start hosts).hasHost a = fun i => hosts[i]? == some a := by
      funext i
      rw [hasHost, host_start]
    rw [heq]
    exact Nat.le_trans (Nat.le_of_eq (count_range hosts a)) hone
  bounded x _ := by simp [start]
  requests q hq := absurd hq not_mem_nil
  drains D hD := absurd hD not_mem_nil

theorem start_counted (hosts : List String) : Counted (start hosts) := by
  intro x b hb
  obtain ⟨hlt, rfl⟩ := List.getElem?_eq_some_iff.mp hb
  simp [start, fresh]

/-! ### Writes to a backend -/

theorem Fits.mono {q : ProxiedRequest} (h : Fits a s q) (hheap : s.heap.length ≤ s'.heap.length)
    (hpool : ∀ left, q = .scanning left → s.pool.length ≤ s'.pool.length)
    (hmarked : ∀ x, q = .picked x → s'.host x = some a → s'.Drained x →
      s.host x = some a ∧ s.Drained x) : Fits a s' q := by
  cases q with
  | scanning left => exact Nat.le_trans h (hpool left rfl)
  | picked x =>
    refine ⟨Nat.lt_of_lt_of_le h.1 hheap, fun hx hd => ?_⟩
    obtain ⟨hx, hd⟩ := hmarked x rfl hx hd
    exact h.2 hx hd
  | counted x => exact Nat.lt_of_lt_of_le h hheap
  | refused | served => trivial

theorem Holds.mono (h : Holds a s D) (hhost : ∀ x, s.host x = some D.addr → s'.host x = some D.addr)
    (hpool : ∀ x, s.host x = some D.addr → x ∈ s'.pool → x ∈ s.pool)
    (hhealthy : ∀ x, s.host x = some D.addr → D.addr = a → D.phase.marked = some x → x ∈ s.pool →
      s.isHealthy x = false → s'.isHealthy x = false) : Holds a s' D := by
  obtain ⟨addr, timeout, phase⟩ := D
  cases phase with
  | called | missed => trivial
  | found x => exact hhost x h
  | draining x _ | leaving x =>
    refine ⟨hhost x h.1, fun ha hx => ?_⟩
    have hold := hpool x h.1 hx
    exact hhealthy x h.1 ha rfl hold (h.2 ha hold)
  | removed x => exact ⟨hhost x h.1, fun ha hx => h.2 ha (hpool x h.1 hx)⟩

namespace Sound

variable (h : Sound a s)
include h

theorem unhealthy (hx : s.host x = some a) (hd : s.Drained x)
    (hpool : x ∈ s.pool) : s.isHealthy x = false := by
  obtain ⟨⟨addr, timeout, phase⟩, hD, hmarked⟩ := hd
  have hholds := h.drains _ hD
  cases phase with
  | draining y _ | leaving y =>
    cases hmarked
    exact hholds.2 (Option.some.inj (hholds.1.symm.trans hx)) hpool
  | removed y =>
    cases hmarked
    exact absurd hpool (hholds.2 (Option.some.inj (hholds.1.symm.trans hx)))
  | called | missed | found y => cases hmarked

theorem unpicked (hx : s.host x = some a) (hd : s.Drained x) :
    .picked x ∉ s.requests := fun hq => (h.requests _ hq).2 hx hd

theorem addr_of_leaving (hD : D ∈ s.drains) (hphase : D.phase = .leaving x)
    (hx : s.host x = some a) : D.addr = a := by
  have hholds := h.drains D hD
  rw [Holds, hphase] at hholds
  exact Option.some.inj (hholds.1.symm.trans hx)

theorem alter (hhost : ∀ b, (f b).host = b.host)
    (hhealthy : s.host x = some a → s.Drained x → x ∈ s.pool →
      ∀ b, b.healthy = false → (f b).healthy = false) : Sound a (s.alter x f) where
  pool_valid y hy := by
    rw [length_alter]
    exact h.pool_valid y hy
  once := by
    rw [hasHost_alter hhost]
    exact h.once
  bounded y hy := h.bounded y (host_alter hhost x y ▸ hy)
  requests q hq := (h.requests q hq).mono (Nat.le_of_eq (length_alter f x).symm)
    (fun _ _ => Nat.le_refl _) fun y _ hy hd => ⟨host_alter hhost x y ▸ hy, hd⟩
  drains D hD := by
    refine (h.drains D hD).mono (fun y hy => (host_alter hhost x y).trans hy) (fun _ _ hy => hy)
      fun y hy ha hmarked hpool hbefore => ?_
    rw [isHealthy, getElem?_alter]
    rw [isHealthy] at hbefore
    cases hb : s.heap[y]? with
    | none => rfl
    | some b =>
      rw [hb] at hbefore
      show (if x = y then f b else b).healthy = false
      split
      · next heq =>
        subst heq
        exact hhealthy (ha ▸ hy) ⟨D, hD, hmarked⟩ hpool b hbefore
      · exact hbefore

theorem withProbes (rr : UInt32) (probes : List HealthProbe) : Sound a { s with rr, probes } :=
  ⟨h.pool_valid, h.once, h.bounded, h.requests, h.drains⟩

/-- The request `q` is new, or has taken the place of another. -/
theorem withRequest {requests : List ProxiedRequest} (q : ProxiedRequest)
    (hmem : ∀ p ∈ requests, p ∈ s.requests ∨ p = q) (hfits : Fits a s q)
    (hbound : ∀ y, s.host y = some a → requests.count (.counted y) < 2 ^ 32) :
    Sound a { s with requests } where
  pool_valid := h.pool_valid
  once := h.once
  bounded := hbound
  requests p hp := by
    rcases hmem p hp with hp | rfl
    · exact h.requests p hp
    · exact hfits
  drains := h.drains

/-- The drain `D` is new, or has gone on. -/
theorem withDrain {drains : List Drain} (D : Drain)
    (hmem : ∀ D' ∈ drains, D' ∈ s.drains ∨ D' = D) (hholds : Holds a s D)
    (hmarked : ∀ y, D.phase.marked = some y → s.host y = some a → .picked y ∉ s.requests) :
    Sound a { s with drains } where
  pool_valid := h.pool_valid
  once := h.once
  bounded := h.bounded
  requests q hq := by
    refine (h.requests q hq).mono (Nat.le_refl _) (fun _ _ => Nat.le_refl _) fun y hy hhost hd => ?_
    obtain ⟨D', hD', hy'⟩ := hd
    rcases hmem D' hD' with hold | rfl
    · exact ⟨hhost, D', hold, hy'⟩
    · exact absurd (hy ▸ hq) (hmarked y hy' hhost)
  drains D' hD' := by
    rcases hmem D' hD' with hold | rfl
    · exact h.drains D' hold
    · exact hholds

theorem setPhase (hD : s.drains[d]? = some D) (hholds : Holds a s { D with phase })
    (hmarked : ∀ y, phase.marked = some y → s.host y = some a → .picked y ∉ s.requests) :
    Sound a (s.setPhase d phase) := by
  refine h.withDrain { D with phase } (fun D' hD' => ?_) hholds hmarked
  obtain ⟨i, hi⟩ := mem_iff_getElem?.mp hD'
  rw [List.getElem?_modify] at hi
  obtain ⟨D0, hD0, rfl⟩ := map_eq_some_iff.mp hi
  split
  · next heq =>
    subst heq
    cases hD.symm.trans hD0
    exact .inr rfl
  · exact .inl (mem_of_getElem? hD0)

theorem call (addr : String) (timeout : Int) :
    Sound a { s with drains := s.drains ++ [⟨addr, timeout, .called⟩] } :=
  h.withDrain ⟨addr, timeout, .called⟩ (fun _ hD => (mem_append.mp hD).imp_right mem_singleton.mp)
    trivial fun _ hy => by cases hy

theorem arrive : Sound a { s with requests := s.requests ++ [.scanning s.pool.length] } := by
  refine h.withRequest (.scanning s.pool.length)
    (fun _ hq => (mem_append.mp hq).imp_right mem_singleton.mp) (Nat.le_refl _) fun y hy => ?_
  simpa using h.bounded y hy

end Sound

theorem Counted.alter (h : Counted s) (hf : ∀ b, (f b).connections = b.connections) : Counted
    (s.alter x f) := by
  intro y b hb
  rw [getElem?_alter] at hb
  obtain ⟨b0, hb0, rfl⟩ := map_eq_some_iff.mp hb
  have hsame : (if x = y then f b0 else b0).connections = b0.connections := by
    split
    · exact hf b0
    · rfl
  rw [hsame]
  exact h y b0 hb0

theorem count_setRequest {r : Nat} {q q' : ProxiedRequest} (hq : s.requests[r]? = some q)
    (y : Nat) :
    (s.requests.set r q').count (.counted y) + (if q = .counted y then 1 else 0) =
      s.requests.count (.counted y) + (if q' = .counted y then 1 else 0) := by
  obtain ⟨hlt, rfl⟩ := List.getElem?_eq_some_iff.mp hq
  have hpos : s.requests[r] = .counted y → 1 ≤ s.requests.count (.counted y) := by
    intro heq
    exact one_le_count_iff.mpr (heq ▸ getElem_mem hlt)
  rw [count_set hlt]
  simp only [beq_iff_eq]
  split
  · next heq =>
    have := hpos heq
    omega
  · omega

theorem Sound.serve (h : Sound a s)
    (hwrap : ∀ x, s.requests[r]? = some (.picked x) → s.host x = some a →
      s.requests.count (.counted x) + 1 < 2 ^ 32)
    (hs : Serves s r s' o) : Sound a s' := by
  have hset : ∀ q, ∀ p ∈ s.requests.set r q, p ∈ s.requests ∨ p = q :=
    fun q p hp => mem_or_eq_of_mem_set hp
  -- a request that is not counted before or after leaves the counts as they are
  have hquiet : ∀ q q' y, s.requests[r]? = some q → (∀ z, q' ≠ .counted z) →
      s.host y = some a → (s.requests.set r q').count (.counted y) < 2 ^ 32 := by
    intro q q' y hq hq' hy
    have heq := @count_setRequest s r q q' hq y
    have hlt := h.bounded y hy
    rw [if_neg (hq' y)] at heq
    omega
  cases hs with
  | refuses hq =>
    exact h.withRequest _ (hset _) trivial fun y => hquiet _ _ y hq fun _ hy => by cases hy
  | @passes left hq =>
    have hleft : left + 1 ≤ s.pool.length := h.requests _ (mem_of_getElem? hq)
    exact (h.withProbes (s.rr + 1) s.probes).withRequest _ (hset _) (Nat.le_of_succ_le hleft)
      fun y => hquiet _ _ y hq fun _ hy => by cases hy
  | @picks left x hq hpool hhealthy =>
    refine (h.withProbes (s.rr + 1) s.probes).withRequest _ (hset _)
      ⟨h.pool_valid x hpool, fun hhost hd => ?_⟩ fun y => hquiet _ _ y hq fun _ hy => by cases hy
    rw [h.unhealthy hhost hd hpool] at hhealthy
    cases hhealthy
  | @counts x hq =>
    have halter : Sound a (s.alter x incConn) := h.alter (fun _ => rfl) fun _ _ _ _ hb => hb
    refine halter.withRequest _ (hset _) ?_ fun y hy => ?_
    · exact (halter.requests _ (mem_of_getElem? hq)).1
    · rw [@host_alter s incConn (fun _ => rfl)] at hy
      have heq := @count_setRequest s r _ (.counted x) hq y
      have hlt := h.bounded y hy
      show (s.requests.set r (.counted x)).count (.counted y) < 2 ^ 32
      rcases eq_or_ne x y with rfl | hne
      · have hroom := hwrap x hq hy
        simp at heq
        omega
      · simp [hne] at heq
        omega
  | @ends x hq =>
    have halter : Sound a (s.alter x decConn) := h.alter (fun _ => rfl) fun _ _ _ _ hb => hb
    refine halter.withRequest _ (hset _) trivial fun y hy => ?_
    rw [@host_alter s decConn (fun _ => rfl)] at hy
    exact hquiet _ _ y hq (fun _ hy => by cases hy) hy

theorem Counted.arrive (h : Counted s) :
    Counted { s with requests := s.requests ++ [.scanning s.pool.length] } := by
  intro y b hb
  rw [h y b hb]
  simp

theorem Counted.setRequest (h : Counted s) {r : Nat} {q : ProxiedRequest}
    (hsame : ∀ y, (s.requests.set r q).count (.counted y) = s.requests.count (.counted y)) :
    Counted (s.setRequest r q) := by
  intro y b hb
  rw [h y b hb]
  exact congrArg Int32.ofNat (hsame y).symm

theorem Counted.recount (h : Counted s) {q : ProxiedRequest}
    (hown : ∀ b, b.connections = Int32.ofNat (s.requests.count (.counted x)) →
      (f b).connections = Int32.ofNat ((s.requests.set r q).count (.counted x)))
    (hothers : ∀ y, x ≠ y →
      (s.requests.set r q).count (.counted y) = s.requests.count (.counted y)) :
    Counted ((s.alter x f).setRequest r q) := by
  intro y b hb
  change (s.alter x f).heap[y]? = some b at hb
  rw [getElem?_alter] at hb
  obtain ⟨b0, hb0, rfl⟩ := map_eq_some_iff.mp hb
  show _ = Int32.ofNat ((s.requests.set r q).count (.counted y))
  split
  · next heq =>
    subst heq
    exact hown b0 (h x b0 hb0)
  · next hne =>
    rw [hothers y hne]
    exact h y b0 hb0

theorem Counted.serve (h : Counted s) (hs : Serves s r s' o) : Counted s' := by
  cases hs with
  | refuses hq => exact h.setRequest fun y => by simpa using @count_setRequest s r _ .refused hq y
  | @passes left hq =>
    exact @Counted.setRequest { s with rr := s.rr + 1 } h r _ fun y => by
      simpa using @count_setRequest s r _ (.scanning left) hq y
  | @picks left x hq =>
    exact @Counted.setRequest { s with rr := s.rr + 1 } h r _ fun y => by
      simpa using @count_setRequest s r _ (.picked x) hq y
  | @counts x hq =>
    refine h.recount (fun b hb => ?_) fun y hne => ?_
    · have heq := @count_setRequest s r _ (.counted x) hq x
      simp at heq
      simp [incConn, hb, heq, Int32.ofNat_add]
    · simpa [hne] using @count_setRequest s r _ (.counted x) hq y
  | @ends x hq =>
    refine h.recount (fun b hb => ?_) fun y hne => ?_
    · have heq := @count_setRequest s r _ .served hq x
      simp at heq
      simp [decConn, hb, ← heq]
    · simpa [hne] using @count_setRequest s r _ .served hq y

theorem not_scanning (hfree : s.readLocked = false) (left : Nat) : .scanning left ∉ s.requests := by
  intro hq
  have := any_eq_false.mp hfree _ hq
  exact this rfl

theorem Sound.not_mem_removeBackend (h : Sound a s) (hx : s.host x = some a) :
    x ∉ (s.removeBackend a).pool := by
  intro hmem
  change x ∈ s.pool.eraseP (s.hasHost a) at hmem
  have hxa : s.hasHost a x = true := hasHost_iff.mpr hx
  obtain ⟨y, l1, l2, _, hy, hsplit, herase⟩ :=
    exists_of_eraseP (mem_of_mem_eraseP hmem) hxa
  rw [herase] at hmem
  have honce := h.once
  have hleft : 0 < (l1 ++ l2).countP (s.hasHost a) := countP_pos_iff.mpr ⟨x, hmem, hxa⟩
  rw [hsplit, countP_append, countP_cons_of_pos hy] at honce
  rw [countP_append] at hleft
  omega

theorem Sound.removeBackend (h : Sound a s) (hfree : s.readLocked = false) (addr : String) :
    Sound a (s.removeBackend addr) where
  pool_valid x hx := h.pool_valid x (mem_of_mem_eraseP hx)
  once := Nat.le_trans (eraseP_sublist.countP_le) h.once
  bounded := h.bounded
  requests q hq := (h.requests q hq).mono (Nat.le_refl _)
    (fun left hleft => absurd (hleft ▸ hq) (not_scanning hfree left)) fun _ _ hx hd => ⟨hx, hd⟩
  drains D hD := (h.drains D hD).mono (fun _ hx => hx) (fun _ _ hx => mem_of_mem_eraseP hx)
    fun _ _ _ _ _ hx => hx

theorem host_of_addBackend (hne : host ≠ a)
    (hx : (s.addBackend host).host x = some a) : x < s.heap.length ∧ s.host x = some a := by
  have hlt : x < (s.heap ++ [fresh host]).length := host_valid hx
  rw [length_append, length_singleton] at hlt
  rcases Nat.lt_succ_iff_lt_or_eq.mp hlt with hold | rfl
  · rw [host_addBackend hold] at hx
    exact ⟨hold, hx⟩
  · simp [LoadBalancer.host, addBackend, fresh, hne] at hx

theorem Sound.addBackend (h : Sound a s) (hfree : s.readLocked = false) (hne : host ≠ a) : Sound a
    (s.addBackend host) where
  pool_valid x hx := by
    show x < (s.heap ++ [fresh host]).length
    rw [length_append, length_singleton]
    rcases mem_append.mp hx with hx | hx
    · exact Nat.lt_succ_of_lt (h.pool_valid x hx)
    · rw [mem_singleton.mp hx]
      exact Nat.lt_succ_self _
  once := by
    show (s.pool ++ [s.heap.length]).countP ((s.addBackend host).hasHost a) ≤ 1
    have hnew : (s.addBackend host).hasHost a s.heap.length = false := by
      rw [← Bool.not_eq_true, hasHost_iff]
      intro hhost
      exact absurd (host_of_addBackend hne hhost).1 (Nat.lt_irrefl _)
    have hold : s.pool.countP ((s.addBackend host).hasHost a) = s.pool.countP (s.hasHost a) := by
      refine countP_congr fun x hx => ?_
      rw [hasHost, host_addBackend (h.pool_valid x hx), hasHost]
    rw [countP_append, hold, countP_singleton, hnew]
    exact h.once
  bounded x hx := h.bounded x (host_of_addBackend hne hx).2
  requests q hq := (h.requests q hq).mono (length_append ▸ Nat.le_add_right _ _)
    (fun left hleft => absurd (hleft ▸ hq) (not_scanning hfree left))
    fun x _ hx hd => ⟨(host_of_addBackend hne hx).2, hd⟩
  drains D hD := by
    refine (h.drains D hD).mono (fun x hx => (host_addBackend (host_valid hx)).trans hx)
      (fun x hx hpool => ?_) fun x hx _ _ _ hold => ?_
    · rcases mem_append.mp hpool with hpool | hpool
      · exact hpool
      · exact absurd (mem_singleton.mp hpool) (Nat.ne_of_lt (host_valid hx))
    · rw [isHealthy, getElem?_addBackend (host_valid hx)]
      exact hold

theorem Counted.addBackend (hc : Counted s) (h : Sound a s) (host : String) :
    Counted (s.addBackend host) := by
  intro x b hb
  have hlt : x < (s.heap ++ [fresh host]).length := (List.getElem?_eq_some_iff.mp hb).1
  rw [length_append, length_singleton] at hlt
  rcases Nat.lt_succ_iff_lt_or_eq.mp hlt with hold | rfl
  · rw [getElem?_addBackend hold] at hb
    exact hc x b hb
  · -- nothing is counted on a backend that is not there yet
    have hnone : s.requests.count (.counted s.heap.length) = 0 := by
      refine count_eq_zero.mpr fun hq => ?_
      exact absurd (h.requests _ hq) (Nat.lt_irrefl _)
    have hfresh : fresh host = b := by
      simpa [LoadBalancer.addBackend] using hb
    subst hfresh
    show (0 : Int32) = Int32.ofNat (s.requests.count (.counted s.heap.length))
    rw [hnone]
    rfl

/-! ### Steps of the parties -/

theorem Sound.check (h : Sound a s)
    (hclear : ∀ x, s.probes[p]? = some (.probed x true) → s.host x = some a → x ∈ s.pool →
      ¬ s.Drained x)
    (hs : Checks c s p s') : Sound a s' := by
  cases hs with
  | turns q => exact h.withProbes s.rr _
  | @records x healthy hq q =>
    refine (h.alter (f := setHealthy c healthy) (host_setHealthy c healthy)
      (x := x) fun hhost hd hpool b _ => ?_).withProbes s.rr _
    rw [healthy_setHealthy]
    cases healthy with
    | false => rfl
    | true => exact absurd hd (hclear x hq hhost hpool)
  | replaces x addr q =>
    have halter : Sound a (s.alter x setReplacing) :=
      h.alter (fun _ => rfl) fun _ _ _ _ hb => hb
    exact (halter.call addr (10 * 10 ^ 9)).withProbes s.rr _

theorem Counted.check (h : Counted s) (hs : Checks c s p s') : Counted s' := by
  cases hs with
  | turns q => exact h
  | @records x healthy hq q =>
    exact h.alter (x := x) (connections_setHealthy c healthy)
  | replaces x addr q => exact h.alter (x := x) (f := setReplacing) fun _ => rfl

theorem Sound.drain (h : Sound a s)
    (hclear : ∀ D x, s.drains[d]? = some D → D.phase = .found x → D.addr = a →
      .picked x ∉ s.requests)
    (hs : Drains c s d s' o) : Sound a s' := by
  have hholds : ∀ {D : Drain}, s.drains[d]? = some D → Holds a s D :=
    fun hD => h.drains _ (mem_of_getElem? hD)
  -- what an earlier phase has marked is not picked
  have hunpicked : ∀ {D : Drain} {x : Nat}, s.drains[d]? = some D → D.phase.marked = some x →
      ∀ y, some x = some y → s.host y = some a → .picked y ∉ s.requests := by
    rintro D x hD hmarked y ⟨⟩ hx
    exact h.unpicked hx ⟨D, mem_of_getElem? hD, hmarked⟩
  cases hs with
  | misses hD hphase => exact h.setPhase hD trivial fun _ hy => by cases hy
  | finds hD hphase hhost => exact h.setPhase hD hhost fun _ hy => by cases hy
  | @marks D x hD hphase deadline =>
    have hfound := hholds hD
    rw [Holds, hphase] at hfound
    have halter : Sound a (s.alter x (setHealthy c false)) :=
      h.alter (host_setHealthy c false) fun _ _ _ b _ => healthy_setHealthy c false b
    refine halter.setPhase hD ⟨?_, fun _ _ => ?_⟩ fun y hy ha => ?_
    · exact (host_alter (host_setHealthy c false) x x).trans hfound
    · rw [isHealthy, getElem?_alter]
      cases s.heap[x]? with
      | none => rfl
      | some b => simp
    · cases hy
      rw [host_alter (host_setHealthy c false), hfound] at ha
      exact hclear D x hD hphase (Option.some.inj ha)
  | waits => exact h
  | @leaves D x deadline hD hphase =>
    have hdraining := hholds hD
    rw [Holds, hphase] at hdraining
    exact h.setPhase hD hdraining (hunpicked hD (by rw [hphase]; rfl))
  | @removes D x hD hphase hfree =>
    have hleaving := hholds hD
    rw [Holds, hphase] at hleaving
    refine (h.removeBackend hfree D.addr).setPhase hD ⟨hleaving.1, ?_⟩
      (hunpicked hD (by rw [hphase]; rfl))
    rintro rfl
    exact h.not_mem_removeBackend hleaving.1

theorem Counted.drain (h : Counted s) (hs : Drains c s d s' o) : Counted s' := by
  cases hs with
  | @marks D x => exact h.alter (x := x) (connections_setHealthy c false)
  | misses | finds | waits | leaves | removes => exact h

def Kept (a : String) (s : LoadBalancer) : Prop := Sound a s ∧ Counted s

theorem Kept.step {i : BalancerAction} {o : BalancerNote} (h : Kept a s)
    (horderly : Orderly a ⟨s, i, o⟩) (hother : i.adds ≠ some a) (hs : Steps c s i s' o) :
    Kept a s' := by
  obtain ⟨hsound, hcounted⟩ := h
  cases hs with
  | rejects => exact ⟨hsound, hcounted⟩
  | @adds host hfree =>
    have hne : host ≠ a := fun heq => hother (congrArg some heq)
    exact ⟨hsound.addBackend hfree hne, hcounted.addBackend hsound host⟩
  | arrives => exact ⟨hsound.arrive, hcounted.arrive⟩
  | serves h => exact ⟨hsound.serve horderly h, hcounted.serve h⟩
  | asks => exact ⟨hsound.withProbes s.rr _, hcounted⟩
  | checks h => exact ⟨hsound.check horderly h, hcounted.check h⟩
  | calls addr timeout => exact ⟨hsound.call addr timeout, hcounted⟩
  | drains h => exact ⟨hsound.drain horderly h, hcounted.drain h⟩

theorem Kept.idle (h : Kept a s) (hx : s.host x = some a) (hd : s.Drained x)
    (hconns : s.conns x = some 0) : ¬ s.InFlight x := by
  obtain ⟨hsound, hcounted⟩ := h
  rintro ⟨q, hq, hbackend⟩
  obtain ⟨b, hb, hzero⟩ := map_eq_some_iff.mp hconns
  have hcount := hcounted x b hb
  have hlt := hsound.bounded x hx
  cases q with
  | picked y =>
    cases hbackend
    exact hsound.unpicked hx hd hq
  | counted y =>
    cases hbackend
    have hpos : 0 < s.requests.count (.counted x) := count_pos_iff.mpr hq
    rw [hzero] at hcount
    have hbits := congrArg (fun n => n.toBitVec.toNat) hcount
    simp at hbits
    omega
  | scanning _ | refused | served => cases hbackend

theorem Sound.idle_step {i : BalancerAction} (h : Sound a s)
    (hx : s.host x = some a) (hd : s.Drained x) (hidle : ¬ s.InFlight x) (hs : Steps c s i s' o) :
    ¬ s'.InFlight x := by
  -- a request that is new or has gone on is not given to `x`
  have hset : ∀ r q, q.backend ≠ some x → ∀ p ∈ s.requests.set r q, p.backend ≠ some x := by
    intro r q hq p hp
    rcases mem_or_eq_of_mem_set hp with hp | rfl
    · exact fun hb => hidle ⟨p, hp, hb⟩
    · exact hq
  cases hs with
  | rejects | adds | asks | calls => exact hidle
  | arrives =>
    rintro ⟨q, hq, hb⟩
    rcases mem_append.mp hq with hq | hq
    · exact hidle ⟨q, hq, hb⟩
    · rw [mem_singleton.mp hq] at hb
      cases hb
  | serves h' =>
    rintro ⟨q, hq, hb⟩
    cases h' with
    | refuses => exact hset _ .refused (by rintro ⟨⟩) q hq hb
    | @passes left => exact hset _ (.scanning left) (by rintro ⟨⟩) q hq hb
    | @picks _ y _ hpool hhealthy =>
      refine hset _ (.picked y) ?_ q hq hb
      rintro ⟨⟩
      rw [h.unhealthy hx hd hpool] at hhealthy
      cases hhealthy
    | @counts y hy =>
      refine hset _ (.counted y) ?_ q hq hb
      rintro ⟨⟩
      exact hidle ⟨_, mem_of_getElem? hy, rfl⟩
    | ends => exact hset _ .served (by rintro ⟨⟩) q hq hb
  | checks h' =>
    cases h' with
    | turns | records | replaces => exact hidle
  | drains h' =>
    cases h' with
    | misses | finds | marks | waits | leaves | removes => exact hidle

/-- A backend at `a` that a drain has marked. -/
structure Marked (a : String) (x : Nat) (s : LoadBalancer) : Prop where
  kept : Kept a s
  host : s.host x = some a
  drained : s.Drained x

theorem Marked.step {i : BalancerAction} {o : BalancerNote} (h : Marked a x s)
    (horderly : Orderly a ⟨s, i, o⟩) (hother : i.adds ≠ some a) (hs : Steps c s i s' o) :
    Marked a x s' :=
  ⟨h.kept.step horderly hother hs, host_step hs h.host, h.drained.step hs⟩

theorem Kept.proceeds (h : Kept a s) : Proceeds c a s where
  scans r left hq := by
    have hle : left ≤ s.pool.length := h.1.requests _ (mem_of_getElem? hq)
    unfold serve
    rw [hq]
    cases left with
    | zero => rfl
    | succ left =>
      have hlt : (s.rr + 1).toNat % s.pool.length < s.pool.length := Nat.mod_lt _ (by omega)
      simp only [List.getElem?_eq_getElem hlt]
      split <;> rfl
  leaves d D x deadline now hD hphase hconns := by
    simp [drain, hD, hphase, hconns]
  removes d D x now hD hphase hx hfree := by
    refine ⟨_, by simp [drain, hD, hphase, hfree]; rfl, ?_⟩
    rw [h.1.addr_of_leaving (mem_of_getElem? hD) hphase hx]
    exact h.1.not_mem_removeBackend hx

/-- A marked backend is not picked again, leaves the pool without requests in flight once its
connections were zero, and nothing holds its removal up. -/
theorem draining_stops_traffic (c : BalancerCommand) (hosts : List String) (a : String)
    (hone : hosts.count a ≤ 1) (tr : List BalancerEvent) (s : LoadBalancer)
    (hrun : Run (step c) (start hosts) tr s)
    (hother : ∀ e ∈ tr, e.input.adds ≠ some a) (horderly : ∀ e ∈ tr, Orderly a e) :
    NoLaterPick a tr ∧ RemovedEmpty c a tr ∧ Proceeds c a s := by
  have hall : ∀ e ∈ tr, Orderly a e ∧ e.input.adds ≠ some a :=
    fun e he => ⟨horderly e he, hother e he⟩
  have hkept : ∀ s i s' o, Kept a s → (Orderly a ⟨s, i, o⟩ ∧ i.adds ≠ some a) →
      step c s i = some (s', o) → Kept a s' :=
    fun s i s' o h hq hs => h.step hq.1 hq.2 (step_steps hs)
  have hstart : Kept a (start hosts) := ⟨start_sound hone, start_counted hosts⟩
  -- from the mark on the backend stays marked
  have hmarked : ∀ {i j : Nat} {e e' : BalancerEvent} {d x : Nat}, i < j → tr[i]? = some e →
      tr[j]? = some e' → e.output = .marked d x → e.before.host x = some a →
      Marked a x e'.before := by
    intro i j e e' d x hij he he' hout hx
    refine hrun.invariant_after (fun s i s' o h hq hs => Marked.step h hq.1 hq.2 (step_steps hs))
      hall hij he he' fun s' hs => ?_
    obtain ⟨_, hbefore, _, _⟩ := hrun.split_at he
    have hk : Kept a e.before :=
      hbefore.invariant hkept hstart fun e1 h1 => hall e1 (mem_of_mem_take h1)
    rw [hout] at hs
    have hsteps := step_steps hs
    have hq := hall e (mem_of_getElem? he)
    refine ⟨hk.step (o := .marked d x) ?_ hq.2 hsteps, host_step hsteps hx, marked_step hsteps⟩
    rw [← hout]
    exact hq.1
  refine ⟨?_, ?_, Kept.proceeds (hrun.invariant hkept hstart hall)⟩
  · intro i j e e' d r x hij he he' hout hx hpick
    have hm := hmarked hij he he' hout hx
    obtain ⟨s', hs⟩ := hrun.event_step (mem_of_getElem? he')
    rw [hpick] at hs
    obtain ⟨hpool, hhealthy⟩ := picked_step (step_steps hs)
    rw [hm.kept.1.unhealthy hm.host hm.drained hpool] at hhealthy
    cases hhealthy
  · intro i j k e e' e'' d x hij hjk he he' he'' hout hx hconns hremoved
    have hm' := hmarked hij he he' hout hx
    have hidle' := hm'.kept.idle hm'.host hm'.drained hconns
    have hm := hmarked (Nat.lt_of_lt_of_le hij hjk) he he'' hout hx
    -- without connections nothing is in flight, and from then on nothing new is
    have hidle : ¬ e''.before.InFlight x := by
      rcases Nat.lt_or_eq_of_le hjk with hlt | rfl
      · have hboth : Marked a x e''.before ∧ ¬ e''.before.InFlight x := by
          refine hrun.invariant_after (P := fun s => Marked a x s ∧ ¬ s.InFlight x)
            (fun s i s' o h hq hs => ?_) hall hlt he' he'' fun s' hs => ?_
          · exact ⟨h.1.step hq.1 hq.2 (step_steps hs),
              h.1.kept.1.idle_step h.1.host h.1.drained h.2 (step_steps hs)⟩
          · have hq := hall e' (mem_of_getElem? he')
            exact ⟨hm'.step hq.1 hq.2 (step_steps hs),
              hm'.kept.1.idle_step hm'.host hm'.drained hidle' (step_steps hs)⟩
        exact hboth.2
      · rw [he'] at he''
        cases he''
        exact hidle'
    refine ⟨hidle, fun s' hs => ?_⟩
    obtain ⟨D, hD, hphase, hpool⟩ := removed_step (step_steps hs)
    rw [hpool, hm.kept.1.addr_of_leaving hD hphase hm.host]
    exact hm.kept.1.not_mem_removeBackend hm.host

/-- A request is served by the first backend while a drain waits for it. -/
theorem served_before_removal : ∃ tr s, exec (step .run) (start ["127.0.0.1:8081"])
        [.serveHTTP, .serve 0, .serve 0, .drainBackend "127.0.0.1:8081" 10, .drain 0 0, .drain 0 0,
          .drain 0 1, .serve 0, .drain 0 2, .drain 0 2] = some (tr, s) ∧
      s.pool = [] ∧ NoLaterPick "127.0.0.1:8081" tr ∧ RemovedEmpty .run "127.0.0.1:8081" tr := by
  obtain ⟨tr, s, hexec, hpool, hother, horderly⟩ : ∃ tr s,
      exec (step .run) (start ["127.0.0.1:8081"])
        [.serveHTTP, .serve 0, .serve 0, .drainBackend "127.0.0.1:8081" 10, .drain 0 0, .drain 0 0,
          .drain 0 1, .serve 0, .drain 0 2, .drain 0 2] = some (tr, s) ∧ s.pool = [] ∧
      (∀ e ∈ tr, e.input.adds ≠ some "127.0.0.1:8081") ∧
      ∀ e ∈ tr, Orderly "127.0.0.1:8081" e := by
    refine ⟨_, _, rfl, rfl, by decide +kernel, ?_⟩
    intro e he
    simp only [mem_cons, not_mem_nil, or_false] at he
    rcases he with rfl | rfl | rfl | rfl | rfl | rfl | rfl | rfl | rfl | rfl
    · trivial
    · rintro x ⟨⟩
    · rintro x ⟨⟩ _
      decide
    · trivial
    · rintro D x ⟨⟩ ⟨⟩
    · rintro D x ⟨⟩ ⟨⟩ _
      decide
    · rintro D x ⟨⟩ ⟨⟩
    · rintro x ⟨⟩
    · rintro D x ⟨⟩ ⟨⟩
    · rintro D x ⟨⟩ ⟨⟩
  have hstops := draining_stops_traffic .run ["127.0.0.1:8081"] "127.0.0.1:8081" (by decide) tr s
    (run_of_exec hexec) hother horderly
  exact ⟨tr, s, hexec, hpool, hstops.1, hstops.2.1⟩

/-- A probe is answered before a drain marks the backend, and recorded after it. -/
def lateProbe : List BalancerAction :=
  [.healthCheck, .check 0 true, .drainBackend "127.0.0.1:8081" 10, .drain 0 0, .drain 0 0,
    .check 0 true, .serveHTTP, .serve 0]

/-- A drain looks at the connections between the pick of a request and its count. -/
def lateCount : List BalancerAction :=
  [.serveHTTP, .serve 0, .drainBackend "127.0.0.1:8081" 10, .drain 0 0, .drain 0 0, .drain 0 1,
    .drain 0 1]

theorem lateProbe_picks (c : BalancerCommand) :
    ∃ tr s, exec (step c) (start ["127.0.0.1:8081"]) lateProbe = some (tr, s) ∧
      ¬ NoLaterPick "127.0.0.1:8081" tr := by
  obtain ⟨tr, s, hexec, e, e', he, he', hmark, hhost, hpick⟩ : ∃ tr s,
      exec (step c) (start ["127.0.0.1:8081"]) lateProbe = some (tr, s) ∧
        ∃ e e', tr[4]? = some e ∧ tr[7]? = some e' ∧ e.output = .marked 0 0 ∧
          e.before.host 0 = some "127.0.0.1:8081" ∧ e'.output = .picked 0 0 := by
    cases c <;> exact ⟨_, _, rfl, _, _, rfl, rfl, rfl, rfl, rfl⟩
  refine ⟨tr, s, hexec, fun h => ?_⟩
  exact h 4 7 e e' 0 0 0 (by decide) he he' hmark hhost hpick

theorem lateCount_removes (c : BalancerCommand) :
    ∃ tr s, exec (step c) (start ["127.0.0.1:8081"]) lateCount = some (tr, s) ∧
      ¬ RemovedEmpty c "127.0.0.1:8081" tr := by
  obtain ⟨tr, s, hexec, e, e', e'', he, he', he'', hmark, hhost, hconns, hremoved, hflight⟩ :
      ∃ tr s, exec (step c) (start ["127.0.0.1:8081"]) lateCount = some (tr, s) ∧
        ∃ e e' e'', tr[4]? = some e ∧ tr[5]? = some e' ∧ tr[6]? = some e'' ∧
          e.output = .marked 0 0 ∧ e.before.host 0 = some "127.0.0.1:8081" ∧
          e'.before.conns 0 = some 0 ∧ e''.output = .removed 0 0 ∧
          .picked 0 ∈ e''.before.requests := by
    cases c <;> exact ⟨_, _, rfl, _, _, _, rfl, rfl, rfl, rfl, rfl, rfl, rfl, mem_singleton_self _⟩
  refine ⟨tr, s, hexec, fun h => ?_⟩
  have hidle := h 4 5 6 e e' e'' 0 0 (by decide) (by decide) he he' he'' hmark hhost hconns hremoved
  exact hidle.1 ⟨.picked 0, hflight, rfl⟩

/-- In both programs a late probe brings a drained backend back, and one is removed with a request
in flight. -/
theorem drained_backend_serves_again :
    (∃ tr s, exec (step .lb) (start ["127.0.0.1:8081"]) lateProbe = some (tr, s) ∧
      ¬ NoLaterPick "127.0.0.1:8081" tr) ∧
    (∃ tr s, exec (step .run) (start ["127.0.0.1:8081"]) lateProbe = some (tr, s) ∧
      ¬ NoLaterPick "127.0.0.1:8081" tr) ∧
    (∃ tr s, exec (step .lb) (start ["127.0.0.1:8081"]) lateCount = some (tr, s) ∧
      ¬ RemovedEmpty .lb "127.0.0.1:8081" tr) ∧
    ∃ tr s, exec (step .run) (start ["127.0.0.1:8081"]) lateCount = some (tr, s) ∧
      ¬ RemovedEmpty .run "127.0.0.1:8081" tr :=
  ⟨lateProbe_picks .lb, lateProbe_picks .run, lateCount_removes .lb, lateCount_removes .run⟩

end LoadBalancer

end CalvoProxy
