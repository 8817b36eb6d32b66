import CalvoProxy.Quota.Alike
import CalvoProxy.Quota.Reading

/-!
# How long a bucket stays

Until a response is settled, what is new in the map is a published limit (`Undisturbed`), so a
bucket is gone for good once its reset has come (`purge_without`). A bucket without a reset stays;
`Dated` says that there is none.
-/

namespace CalvoProxy

open QuotaLedger

variable {order : List QuotaBucketKey} {t : QuotaTicket} {ok : Bool}

namespace QuotaLedger

variable {l l' l'' : QuotaLedger} {now : Time} {key : QuotaBucketKey}

/-- A configured limit, its window open when installed, of which no use is known. -/
structure IsDefault (o : QuotaObservation) : Prop where
  source : o.source = .config
  confidence : o.confidence = .estimated
  remaining : o.remaining = o.limit
  observed : 0 ≤ o.observedAt
  reset : o.observedAt < o.resetAt

/-! ## Objects that are not observed anew -/

/-- The observations of `l` are kept, and the new objects are defaults. -/
structure Undisturbed (l l' : QuotaLedger) : Prop where
  evolves : Evolves l l'
  kept : ∀ (a : Addr) (b : QuotaBucket), l.heap[a]? = some b →
    ∃ b' : QuotaBucket, l'.heap[a]? = some b' ∧ b'.observation = b.observation
  added : ∀ (a : Addr) (b' : QuotaBucket), l'.heap[a]? = some b' → l.heap[a]? = none →
    IsDefault b'.observation

namespace Undisturbed

theorem of_heap (ev : Evolves l l') (h : l'.heap = l.heap) : Undisturbed l l' where
  evolves := ev
  kept := fun a b hb => ⟨b, by rw [h, hb], rfl⟩
  added := fun a b' hb' hnone => by
    rw [h, hnone] at hb'
    cases hb'

theorem refl (l : QuotaLedger) : Undisturbed l l := of_heap (.of_sub rfl fun _ _ hk => hk) rfl

theorem trans (h : Undisturbed l l') (h' : Undisturbed l' l'') : Undisturbed l l'' where
  evolves := h.evolves.trans h'.evolves
  kept := fun a b hb => by
    obtain ⟨b', hb', hobs⟩ := h.kept a b hb
    obtain ⟨b'', hb'', hobs'⟩ := h'.kept a b' hb'
    exact ⟨b'', hb'', hobs'.trans hobs⟩
  added := fun a b'' hb'' hnone => by
    cases hb' : l'.heap[a]? with
    | none => exact h'.added a b'' hb'' hb'
    | some b' =>
      -- the object was added on the way and has kept its observation since
      obtain ⟨b, hb, hobs⟩ := h'.kept a b' hb'
      rw [hb''] at hb
      cases hb
      rw [hobs]
      exact h.added a b' hb' hnone

theorem of_length (hbuckets : l'.buckets = l.buckets) (hlength : l'.heap.length = l.heap.length)
    (hkept : ∀ (a : Addr) (b : QuotaBucket), l.heap[a]? = some b →
      ∃ b' : QuotaBucket, l'.heap[a]? = some b' ∧ b'.observation = b.observation) :
    Undisturbed l l' where
  evolves := .of_sub hlength fun k a hk => by rwa [hbuckets] at hk
  kept := hkept
  added := fun a b' hb' hnone => by
    have hlt := (List.getElem?_eq_some_iff.mp hb').1
    rw [hlength] at hlt
    exact absurd (List.getElem?_eq_none_iff.mp hnone) (Nat.not_le.mpr hlt)

theorem purge (l : QuotaLedger) (now : Time) : Undisturbed l (l.purgeExpiredLocked now) :=
  of_heap (evolves_purgeExpiredLocked l now) rfl

theorem of_writes {E : QuotaBucketKey → Prop} {T : Addr → Prop}
    (h : Writes now E T False (fun _ _ => False) l l') : Undisturbed l l' := by
  induction h with
  | drop hdrops => exact of_heap hdrops.evolves hdrops.heap
  | @count l bucket f _ kept =>
    refine of_length (updateBucket_buckets l bucket f) (updateBucket_length l bucket f)
      fun a b hb => ⟨_, updateBucket_object hb, ?_⟩
    split
    · exact kept b
    · rfl
  | charge _ hcharges => exact hcharges.elim
  | store _ hstores => exact hstores.elim
  | trans _ _ ih ih' => exact ih.trans ih'

theorem snapshot (l : QuotaLedger) (key : QuotaBucketKey) (now : Time) :
    Undisturbed l (l.snapshot key now).1 :=
  of_writes (E := (· = key)) (T := fun _ => True) (.snapshot l rfl)

theorem install {limit : Int64} {reset : Time} (hnone : l.buckets.lookup key = none)
    (hnow : 0 ≤ now) (hreset : now < reset) :
    Undisturbed l (l.storeObservation key (published limit reset now)) where
  evolves := evolves_storeObservation l key _
  kept := fun a b hb => ⟨b, storeObservation_object hb (by rw [hnone]; simp), rfl⟩
  added := fun a b' hb' hfree => by
    rcases object_storeObservation hb' with ⟨b, hb, -⟩ | ⟨-, -, rfl⟩
    · cases hfree.symm.trans hb
    · exact ⟨rfl, rfl, rfl, hnow, hreset⟩

theorem reserveAll {rs : List QuotaReservation} {out : Option QuotaTicket}
    (h : l.reserveAll rs now order = some (l', out)) : Undisturbed l l' :=
  of_writes (E := fun _ => True) (.reserveAll (T := fun _ => True) (fun _ _ _ _ => trivial) h)

theorem release (h : l.release t now order = (l', ok)) : Undisturbed l l' :=
  of_writes (E := fun _ => True) (.release (T := fun _ => True) (fun _ _ _ _ => trivial) h)

end Undisturbed

/-! ## Observations with a reset -/

def Dated (l : QuotaLedger) : Prop :=
  ∀ (a : Addr) (b : QuotaBucket), l.heap[a]? = some b → b.observation.resetAt ≠ 0

namespace Dated

theorem of_undisturbed (hd : l.Dated) (h : Undisturbed l l') : l'.Dated := by
  intro a b' hb'
  cases hb : l.heap[a]? with
  | none =>
    have hdefault := h.added a b' hb' hb
    exact Int.ne_of_gt (Int.lt_of_le_of_lt hdefault.observed hdefault.reset)
  | some b =>
    obtain ⟨b'', hb'', hobs⟩ := h.kept a b hb
    rw [hb'] at hb''
    cases hb''
    rw [hobs]
    exact hd a b hb

theorem updateBucket (hd : l.Dated) (bucket : Option Addr) {f : QuotaBucket → QuotaBucket}
    (hf : ∀ b, (f b).observation.resetAt = b.observation.resetAt) :
    (l.updateBucket bucket f).Dated := by
  intro a b' hb'
  obtain ⟨b, hb, ⟨-, rfl⟩ | ⟨-, rfl⟩⟩ := object_updateBucket hb'
  · rw [hf]
    exact hd a b hb
  · exact hd a b' hb

theorem storeObservation (hd : l.Dated) {o : QuotaObservation} (ho : o.resetAt ≠ 0) :
    (l.storeObservation key o).Dated := by
  intro a b' hb'
  rcases object_storeObservation hb' with ⟨b, hb, ⟨-, rfl⟩ | ⟨-, rfl⟩⟩ | ⟨-, -, rfl⟩
  · exact ho
  · exact hd a b' hb
  · exact ho

theorem normaliseQuotaObservation_resetAt (o : QuotaObservation) (now : Time) :
    (normaliseQuotaObservation o now).resetAt = o.resetAt := by
  unfold normaliseQuotaObservation
  simp only
  split <;> split <;> rfl

theorem of_writes {E : QuotaBucketKey → Prop} {T : Addr → Prop} {C : Prop} (hd : l.Dated)
    (h : Writes now E T C (fun _ o => o.resetAt ≠ 0) l l') : l'.Dated := by
  induction h with
  | drop hdrops => exact fun a b hb => hd a b (hdrops.heap ▸ hb)
  | count _ kept => exact hd.updateBucket _ fun b => congrArg QuotaObservation.resetAt (kept b)
  | charge => exact hd.updateBucket _ fun _ => rfl
  | store _ ho => exact hd.storeObservation ho
  | trans _ _ ih ih' => exact ih' (ih hd)

theorem observe (hd : l.Dated) {o : QuotaObservation} (ho : o.resetAt ≠ 0) :
    (l.observe key o now).1.Dated := by
  refine hd.of_writes (T := fun _ => True) (C := True) (.observe (E := (· = key)) rfl fun _ => ?_)
  rw [normaliseQuotaObservation_resetAt]
  exact ho

theorem reconcile {ss : List QuotaSettlement} (hd : l.Dated)
    (hss : ∀ s ∈ ss, ∀ o, s.observation = some o → o.resetAt ≠ 0)
    (h : l.reconcile t ss now order = (l', ok)) : l'.Dated := by
  refine hd.of_writes (.reconcile (E := fun _ => True) (T := fun _ => True) (fun _ _ => trivial)
    (fun _ _ _ _ => trivial) trivial (fun s hs o ho _ => ?_) h)
  rw [normaliseQuotaObservation_resetAt]
  exact hss s hs o ho

end Dated

/-! ## After the reset -/

def without (l : QuotaLedger) (key : QuotaBucketKey) : QuotaLedger :=
  { l with buckets := l.buckets.erase key }

theorem purge_without {b : QuotaBucket} (hb : l.bucketOf key = some b)
    (hexp : expired b.observation now = true) :
    (l.without key).purgeExpiredLocked now = l.purgeExpiredLocked now := by
  refine congrArg (fun buckets => ({ l with buckets := buckets } : QuotaLedger)) ?_
  show GoMap.keep _ (l.buckets.erase key) = GoMap.keep _ l.buckets
  refine GoMap.keep_erase fun a ha => ?_
  have hheap : (l.without key).heap = l.heap := rfl
  rw [bucketOf, ha, Option.bind_some] at hb
  simp only [hheap, hb, hexp, Bool.not_true]

theorem reserveAll_of_purge_eq (h : l'.purgeExpiredLocked now = l.purgeExpiredLocked now)
    (rs : List QuotaReservation) (order : List QuotaBucketKey) :
    (l'.reserveAll rs now order).map Prod.snd = (l.reserveAll rs now order).map Prod.snd := by
  unfold reserveAll
  split
  · rfl
  · rw [h]

theorem reserveAll_refused {rs : List QuotaReservation} {order : List QuotaBucketKey} :
    (l.reserveAll rs now order).map Prod.snd = some none ↔
      ∀ amounts, aggregateReservations rs = some amounts →
        ∃ k c, amounts.lookup k = some c ∧ (l.purgeExpiredLocked now).admits k c = false := by
  unfold reserveAll
  cases hagg : aggregateReservations rs with
  | none => simp
  | some amounts =>
    have hall : ((amounts.range order).all fun e => (l.purgeExpiredLocked now).admits e.1 e.2) =
        false ↔ ∃ k c, amounts.lookup k = some c ∧
          (l.purgeExpiredLocked now).admits k c = false := by
      rw [List.all_eq_false]
      constructor
      · rintro ⟨e, he, hadmits⟩
        exact ⟨e.1, e.2, GoMap.mem_range.mp he, by simpa using hadmits⟩
      · rintro ⟨k, c, hk, hadmits⟩
        exact ⟨⟨k, c⟩, GoMap.mem_range.mpr hk, by simpa using hadmits⟩
    simp only [Option.some.injEq, forall_eq', ← hall]
    split
    · next htrue =>
      rw [htrue]
      simp only [Bool.true_eq_false, iff_false]
      split
      · exact fun h => nomatch h
      · exact fun h => nomatch h
    · next hfalse => simpa using hfalse

end QuotaLedger

end CalvoProxy
