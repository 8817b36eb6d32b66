import Mathlib.Data.List.Nodup
import Mathlib.Logic.Function.Basic

/-!
# The ring of traces

`router_trace_ring.go`: the last traces in a ring, and the same ones by their ids (`ring_window`).
-/

namespace CalvoProxy

open Function List

structure TraceRing (τ : Type) where
  entries : Nat → Option τ
  byID : String → Option τ
  next : Nat

namespace TraceRing

variable {τ : Type} {id : τ → String} {n : Nat} {r : TraceRing τ} {window : List τ} {t : τ}

def empty : TraceRing τ := ⟨fun _ => none, fun _ => none, 0⟩

def add (id : τ → String) (n : Nat) (r : TraceRing τ) (t : τ) : TraceRing τ :=
  if id t = "" then r
  else
    let byID := match r.entries r.next with
      | some evicted => update r.byID (id evicted) none
      | none => r.byID
    ⟨update r.entries r.next (some t), update byID (id t) (some t), (r.next + 1) % n⟩

def get (r : TraceRing τ) (id : String) : Option τ := r.byID id

def recent (n : Nat) (r : TraceRing τ) (limit : Nat) : List τ :=
  ((List.range n).filterMap fun i => r.entries ((r.next + n - (i + 1)) % n)).take limit

def ofAdded (id : τ → String) (n : Nat) (added : List τ) : TraceRing τ :=
  added.foldl (TraceRing.add id n) empty

structure Holds (id : τ → String) (n : Nat) (ts : List τ) (r : TraceRing τ) : Prop where
  next_lt : r.next < n
  entry : ∀ i < n, r.entries ((r.next + n - (i + 1)) % n) = ts[i]?
  byID : ∀ x, r.byID x = (ts.take n).find? (id · = x)

theorem place_eq {next i : Nat} (hnext : next < n) (hi : i < n) : (next + n - (i + 1)) % n =
    if i < next then next - (i + 1) else next + n - (i + 1) := by
  split
  · rw [show next + n - (i + 1) = next - (i + 1) + n by omega, Nat.add_mod_right]
    exact Nat.mod_eq_of_lt (by omega)
  · exact Nat.mod_eq_of_lt (by omega)

theorem next_eq {next : Nat} (hnext : next < n) :
    (next + 1) % n = if next + 1 = n then 0 else next + 1 := by
  split
  · next h => rw [h, Nat.mod_self]
  · exact Nat.mod_eq_of_lt (by omega)

theorem place_succ {next i : Nat} (hnext : next < n) (hi : i + 1 < n) :
    ((next + 1) % n + n - (i + 1 + 1)) % n = (next + n - (i + 1)) % n := by
  rw [place_eq (Nat.mod_lt _ (by omega)) hi, place_eq hnext (by omega), next_eq hnext]
  split <;> split <;> split <;> omega

theorem place_zero {next : Nat} (hnext : next < n) : ((next + 1) % n + n - (0 + 1)) % n = next := by
  rw [place_eq (Nat.mod_lt _ (by omega)) (by omega), next_eq hnext]
  split <;> split <;> omega

theorem place_ne {next i : Nat} (hnext : next < n) (hi : i + 1 < n) :
    (next + n - (i + 1)) % n ≠ next := by
  rw [place_eq hnext (by omega)]
  split <;> omega

namespace Holds

variable {ts : List τ}

theorem evicted (h : Holds id n ts r) : r.entries r.next = ts[n - 1]? := by
  have hnext := h.next_lt
  have hold := h.entry (n - 1) (by omega)
  rwa [show r.next + n - (n - 1 + 1) = r.next by omega, Nat.mod_eq_of_lt hnext] at hold

theorem byID_add (h : Holds id (n + 1) ts r) (hids : (ts.map id).Nodup) (x : String) :
    (match r.entries r.next with
      | some evicted => update r.byID (id evicted) none
      | none => r.byID) x = (ts.take n).find? (id · = x) := by
  have hx := h.byID x
  rw [h.evicted, Nat.add_sub_cancel]
  rw [take_add_one, find?_append] at hx
  cases he : ts[n]? with
  | none =>
    rw [he] at hx
    exact hx.trans Option.or_none
  | some e =>
    rw [he] at hx
    dsimp only
    rw [update_apply]
    split
    · next heq =>
      have hnodup := hids.sublist ((take_sublist (n + 1) ts).map id)
      rw [take_add_one, he, map_append, nodup_append] at hnodup
      refine (find?_eq_none.mpr fun a ha hid => ?_).symm
      exact hnodup.2.2 (id a) (mem_map_of_mem ha) (id e) (by simp) ((of_decide_eq_true hid).trans heq)
    · next hne => simpa [Ne.symm hne] using hx

variable (h : Holds id n ts r)
include h

theorem add (hids : (ts.map id).Nodup) (ht : id t ≠ "") : Holds id n (t :: ts) (r.add id n t) := by
  have hnext := h.next_lt
  unfold TraceRing.add
  rw [if_neg ht]
  refine ⟨Nat.mod_lt _ (by omega), fun i hi => ?_, fun x => ?_⟩
  · dsimp only
    cases i with
    | zero => rw [place_zero hnext, update_self, getElem?_cons_zero]
    | succ i => rw [place_succ hnext hi, update_of_ne (place_ne hnext hi), h.entry i (by omega),
        getElem?_cons_succ]
  · cases n with
    | zero => omega
    | succ n =>
      dsimp only
      rw [update_apply, h.byID_add hids, take_succ_cons, find?_cons]
      by_cases hx : x = id t
      · simp [hx]
      · simp [hx, Ne.symm hx]

theorem recent (limit : Nat) : TraceRing.recent n r limit = (ts.take n).take limit := by
  have hrange : ∀ m, ((List.range m).filterMap fun i => ts[i]?) = ts.take m := by
    intro m
    induction m with
    | zero => rfl
    | succ m ih =>
      rw [range_succ, filterMap_append, ih, take_add_one]
      cases h : ts[m]? <;> simp [h]
  rw [TraceRing.recent, filterMap_congr fun i hi => h.entry i (mem_range.mp hi), hrange]

theorem get_iff (hids : (ts.map id).Nodup) (x : String) (t : τ) :
    r.get x = some t ↔ t ∈ ts.take n ∧ id t = x := by
  rw [get, h.byID]
  constructor
  · intro hfind
    exact ⟨mem_of_find?_eq_some hfind, by simpa using find?_some hfind⟩
  · rintro ⟨ht, rfl⟩
    obtain ⟨u, hu⟩ := Option.isSome_iff_exists.mp
      (find?_isSome.mpr ⟨t, ht, decide_eq_true rfl⟩ : ((ts.take n).find? (id · = id t)).isSome = true)
    rw [hu, inj_on_of_nodup_map hids (mem_of_mem_take (mem_of_find?_eq_some hu)) (mem_of_mem_take ht)
      (by simpa using find?_some hu)]

theorem mem_iff_entry (t : τ) : t ∈ ts.take n ↔ ∃ j < n, r.entries j = some t := by
  have hnext := h.next_lt
  rw [mem_iff_getElem?]
  constructor
  · rintro ⟨i, hi⟩
    rw [getElem?_take] at hi
    split at hi
    · next hlt => exact ⟨_, Nat.mod_lt _ (by omega), (h.entry i hlt).trans hi⟩
    · cases hi
  · rintro ⟨j, hj, ht⟩
    -- the trace in place `j` is the `i`-th newest
    obtain ⟨i, hi, hplace⟩ : ∃ i, i < n ∧ (r.next + n - (i + 1)) % n = j := by
      refine ⟨if j < r.next then r.next - 1 - j else r.next + n - 1 - j, by split <;> omega, ?_⟩
      rw [place_eq hnext (by split <;> omega)]
      split <;> split <;> omega
    refine ⟨i, ?_⟩
    rw [getElem?_take, if_pos hi, ← h.entry i hi, hplace, ht]

end Holds

theorem run_holds (hn : 0 < n) (ts : List τ) (hids : (ts.map id).Nodup)
    (hne : ∀ t ∈ ts, id t ≠ "") : Holds id n ts (ts.foldr (fun t r => r.add id n t) empty) := by
  induction ts with
  | nil => exact ⟨hn, fun _ _ => rfl, fun _ => by rw [take_nil]; rfl⟩
  | cons t ts ih =>
    exact (ih (nodup_cons.mp hids).2 fun u hu => hne u (mem_cons_of_mem t hu)).add
      (nodup_cons.mp hids).2 (hne t mem_cons_self)

/-- The ring has the last `n` traces, finds each by its id, and lists them newest first. -/
theorem ring_window (hn : 0 < n) (added : List τ) (hids : (added.map id).Nodup)
    (hne : ∀ t ∈ added, id t ≠ "") :
    (∀ x t, (ofAdded id n added).get x = some t ↔ t ∈ added.reverse.take n ∧ id t = x) ∧
      (∀ t, (ofAdded id n added).byID (id t) = some t ↔
        ∃ i < n, (ofAdded id n added).entries i = some t) ∧
      ∀ limit, 1 ≤ limit →
        recent n (ofAdded id n added) limit = (added.reverse.take n).take limit := by
  have hids' : (added.reverse.map id).Nodup := by rwa [map_reverse, nodup_reverse]
  have h := run_holds hn added.reverse hids' fun t ht => hne t (mem_reverse.mp ht)
  rw [← foldl_eq_foldr_reverse] at h
  refine ⟨h.get_iff hids', fun t => ?_, fun limit _ => h.recent limit⟩
  exact (h.get_iff hids' (id t) t).trans ((and_iff_left rfl).trans (h.mem_iff_entry t))

theorem two_of_three : recent 2 (ofAdded (fun t => t) 2 ["a", "b", "c"]) 5 = ["c", "b"] :=
  (ring_window (by decide) ["a", "b", "c"] (by decide) (by decide)).2.2 5 (by decide)

end TraceRing

end CalvoProxy
