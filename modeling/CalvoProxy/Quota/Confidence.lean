import CalvoProxy.Quota.Objects

/-!
# How sure the ledger is of a bucket

An observation is a fact of the provider (`authoritative`) or a default (`estimated`). The objects
under the keys a call stores an observation for take on its confidence, all others keep theirs
(`Restated`).
-/

namespace CalvoProxy

variable {order : List QuotaBucketKey} {t : QuotaTicket} {ok : Bool} {b : QuotaBucket}

namespace QuotaLedger

variable {l l' l'' : QuotaLedger} {now : Time} {key k : QuotaBucketKey}
  {S : QuotaBucketKey → Prop} {c : QuotaConfidence}

structure Restated (S : QuotaBucketKey → Prop) (c : QuotaConfidence) (l l' : QuotaLedger) :
    Prop where
  object : ∀ (a : Addr) (b : QuotaBucket), l.heap[a]? = some b →
    ∃ b' : QuotaBucket, l'.heap[a]? = some b' ∧
      (b'.observation.confidence = b.observation.confidence ∨
        b'.observation.confidence = c ∧ ∃ k, S k ∧ l.buckets.lookup k = some a)
  pointer : ∀ k a, l'.buckets.lookup k = some a → l.buckets.lookup k = some a ∨
      S k ∧ l.heap.length ≤ a ∧
        ∃ b' : QuotaBucket, l'.heap[a]? = some b' ∧ b'.observation.confidence = c

namespace Restated

theorem of_kept (hsub : ∀ k a, l'.buckets.lookup k = some a → l.buckets.lookup k = some a)
    (hkept : ∀ (a : Addr) (b : QuotaBucket), l.heap[a]? = some b →
      ∃ b' : QuotaBucket, l'.heap[a]? = some b' ∧
        b'.observation.confidence = b.observation.confidence) : Restated S c l l' where
  object := fun a b hb => by
    obtain ⟨b', hb', hsame⟩ := hkept a b hb
    exact ⟨b', hb', .inl hsame⟩
  pointer := fun k a hk => .inl (hsub k a hk)

theorem of_heap (hsub : ∀ k a, l'.buckets.lookup k = some a → l.buckets.lookup k = some a)
    (hheap : l'.heap = l.heap) : Restated S c l l' :=
  of_kept hsub fun _ b hb => ⟨b, hheap ▸ hb, rfl⟩

theorem refl (l : QuotaLedger) : Restated S c l l := of_heap (fun _ _ hk => hk) rfl

section

variable (h : Restated S c l l')
include h

theorem length : l.heap.length ≤ l'.heap.length := by
  by_contra hlt
  obtain ⟨b', hb', -⟩ := h.object l'.heap.length _ (List.getElem?_eq_getElem (Nat.not_le.mp hlt))
  exact absurd (List.getElem?_eq_some_iff.mp hb').1 (Nat.lt_irrefl _)

theorem trans (h' : Restated S c l' l'') : Restated S c l l'' where
  object := fun a b hb => by
    obtain ⟨b', hb', hone⟩ := h.object a b hb
    obtain ⟨b'', hb'', htwo⟩ := h'.object a b' hb'
    refine ⟨b'', hb'', ?_⟩
    rcases htwo with hsame | ⟨hc, k, hk, hpointer⟩
    · rw [hsame]
      exact hone
    · -- the object is old, so the pointer to it is old too
      rcases h.pointer k a hpointer with hold | ⟨-, hnew, -⟩
      · exact .inr ⟨hc, k, hk, hold⟩
      · exact absurd (List.getElem?_eq_some_iff.mp hb).1 (Nat.not_lt.mpr hnew)
  pointer := fun k a hk => by
    rcases h'.pointer k a hk with hold | ⟨hS, hnew, hobject⟩
    · rcases h.pointer k a hold with hold' | ⟨hS, hnew, b', hb', hc⟩
      · exact .inl hold'
      · obtain ⟨b'', hb'', hsame | ⟨hc', -⟩⟩ := h'.object a b' hb'
        · exact .inr ⟨hS, hnew, b'', hb'', hsame.trans hc⟩
        · exact .inr ⟨hS, hnew, b'', hb'', hc'⟩
    · exact .inr ⟨hS, Nat.le_trans h.length hnew, hobject⟩

theorem mono {S' : QuotaBucketKey → Prop} (hsub : ∀ k, S k → S' k) : Restated S' c l l' where
  object := fun a b hb => by
    obtain ⟨b', hb', hsame | ⟨hc, k, hk, hpointer⟩⟩ := h.object a b hb
    · exact ⟨b', hb', .inl hsame⟩
    · exact ⟨b', hb', .inr ⟨hc, k, hsub k hk, hpointer⟩⟩
  pointer := fun k a hk => (h.pointer k a hk).imp_right fun hnew => ⟨hsub k hnew.1, hnew.2⟩

end

theorem purge (l : QuotaLedger) (now : Time) : Restated S c l (l.purgeExpiredLocked now) :=
  of_heap (fun _ _ hk => (GoMap.lookup_keep.mp hk).1) rfl

theorem update (l : QuotaLedger) (bucket : Option Addr) {f : QuotaBucket → QuotaBucket}
    (hf : ∀ b, (f b).observation.confidence = b.observation.confidence) :
    Restated S c l (l.updateBucket bucket f) := by
  refine of_kept (fun k a hk => by rwa [updateBucket_buckets] at hk) fun a b hb => ?_
  refine ⟨_, updateBucket_object hb, ?_⟩
  split
  · exact hf b
  · rfl

theorem store (l : QuotaLedger) (key : QuotaBucketKey) (o : QuotaObservation) :
    Restated (· = key) o.confidence l (l.storeObservation key o) := by
  unfold storeObservation
  split
  · next a ha =>
    refine ⟨fun a' b hb => ?_, fun _ _ hk => .inl hk⟩
    have hobject := @updateBucket_object l a' b (some a) (fun b => { b with observation := o }) hb
    refine ⟨_, hobject, ?_⟩
    split
    · next heq => exact .inr ⟨rfl, key, rfl, heq ▸ ha⟩
    · exact .inl rfl
  · refine ⟨fun a b hb => ⟨b, ?_, .inl rfl⟩, fun k a hk => ?_⟩
    · exact (List.getElem?_append_left (List.getElem?_eq_some_iff.mp hb).1).trans hb
    · rw [GoMap.lookup_insert_eq] at hk
      split at hk
      · next heq =>
        cases hk
        exact .inr ⟨heq, Nat.le_refl _, _, List.getElem?_concat_length, rfl⟩
      · exact .inl hk

theorem normaliseQuotaObservation_confidence (o : QuotaObservation) (now : Time) :
    (normaliseQuotaObservation o now).confidence = o.confidence := by
  unfold normaliseQuotaObservation
  simp only
  split <;> split <;> rfl

theorem of_writes {E : QuotaBucketKey → Prop} {T : Addr → Prop} {C : Prop}
    (h : Writes now E T C (fun k o => S k ∧ o.confidence = c) l l') : Restated S c l l' := by
  induction h with
  | drop hdrops => exact of_heap (fun _ _ => hdrops.sub) hdrops.heap
  | count _ kept => exact update _ _ fun b => congrArg QuotaObservation.confidence (kept b)
  | charge => exact update _ _ fun _ => rfl
  | store _ hstores => exact hstores.2 ▸ (store _ _ _).mono fun k hk => hk ▸ hstores.1
  | trans _ _ ih ih' => exact ih.trans ih'

theorem observe (l : QuotaLedger) (key : QuotaBucketKey) (o : QuotaObservation) (now : Time) :
    Restated (· = key) o.confidence l (l.observe key o now).1 :=
  of_writes (T := fun _ => True) (C := True)
    (.observe (E := (· = key)) rfl fun _ => ⟨rfl, normaliseQuotaObservation_confidence o now⟩)

theorem snapshot (l : QuotaLedger) (key : QuotaBucketKey) (now : Time) :
    Restated S c l (l.snapshot key now).1 :=
  of_writes (T := fun _ => True) (C := True) (.snapshot (E := (· = key)) l rfl)

theorem reserveAll {rs : List QuotaReservation} {out : Option QuotaTicket}
    (h : l.reserveAll rs now order = some (l', out)) : Restated S c l l' :=
  of_writes (E := fun _ => True) (C := True)
    (.reserveAll (T := fun _ => True) (fun _ _ _ _ => trivial) h)

theorem release (h : l.release t now order = (l', ok)) : Restated S c l l' :=
  of_writes (E := fun _ => True) (C := True)
    (.release (T := fun _ => True) (fun _ _ _ _ => trivial) h)

theorem reconcile {ss : List QuotaSettlement}
    (hss : ∀ s ∈ ss, ∀ o, s.observation = some o → S s.key ∧ o.confidence = c)
    (h : l.reconcile t ss now order = (l', ok)) : Restated S c l l' := by
  refine of_writes (.reconcile (E := fun _ => True) (T := fun _ => True) (fun _ _ => trivial)
    (fun _ _ _ _ => trivial) trivial (fun s hs o ho _ => ?_) h)
  rw [normaliseQuotaObservation_confidence]
  exact hss s hs o ho

end Restated

/-! ## Facts and defaults -/

/-- No fact is stored under `key`. -/
def Free (l : QuotaLedger) (key : QuotaBucketKey) : Prop :=
  ∀ b, l.bucketOf key = some b → b.observation.confidence ≠ .authoritative

variable (h : Restated S c l l')
include h

theorem Restated.object_fact
    (hfree : c ≠ .authoritative → ∀ k, S k → l.Free k) {a : Addr} (hb : l.heap[a]? = some b)
    (hfact : b.observation.confidence = .authoritative) :
    ∃ b' : QuotaBucket, l'.heap[a]? = some b' ∧ b'.observation.confidence = .authoritative := by
  obtain ⟨b', hb', hsame | ⟨hc, k, hk, hpointer⟩⟩ := h.object a b hb
  · exact ⟨b', hb', hsame.trans hfact⟩
  · refine ⟨b', hb', ?_⟩
    by_contra hother
    exact hfree (hc ▸ hother) k hk b (bucketOf_eq_some.mpr ⟨a, hpointer, hb⟩) hfact

theorem Restated.bucket_fact (hfree : c ≠ .authoritative → ∀ k, S k → l.Free k) {b' : QuotaBucket}
    (hb : l.bucketOf key = some b) (hfact : b.observation.confidence = .authoritative)
    (hb' : l'.bucketOf key = some b') : b'.observation.confidence = .authoritative := by
  obtain ⟨a, ha, hobject⟩ := bucketOf_eq_some.mp hb
  obtain ⟨a', ha', hobject'⟩ := bucketOf_eq_some.mp hb'
  rcases h.pointer key a' ha' with hold | ⟨hS, -, b'', hb'', hc⟩
  · cases ha.symm.trans hold
    obtain ⟨b'', hb'', hfact'⟩ := h.object_fact hfree hobject hfact
    cases hobject'.symm.trans hb''
    exact hfact'
  · cases hobject'.symm.trans hb''
    rw [hc]
    by_contra hother
    exact hfree hother key hS b hb hfact

theorem Restated.free (hp : l.Pointed) (hfree : l.Free key)
    (hkey : S key → c ≠ .authoritative) : l'.Free key := by
  intro b' hb'
  obtain ⟨a, ha, hobject⟩ := bucketOf_eq_some.mp hb'
  rcases h.pointer key a ha with hold | ⟨hS, -, b'', hb'', hc⟩
  · have hlt := hp.addr key a hold
    obtain ⟨b'', hb'', hsame | ⟨hc, k, hk, hpointer⟩⟩ :=
      h.object a _ (List.getElem?_eq_getElem hlt)
    · cases hobject.symm.trans hb''
      rw [hsame]
      exact hfree _ (bucketOf_eq_some.mpr ⟨a, hold, List.getElem?_eq_getElem hlt⟩)
    · cases hobject.symm.trans hb''
      -- no other key points to the object
      rw [hc]
      exact hkey (hp.inj k key a hpointer hold ▸ hk)
  · cases hobject.symm.trans hb''
    rw [hc]
    exact hkey hS

end QuotaLedger

end CalvoProxy
