import CalvoProxy.Router.PressureOrder

/-!
# Providers take turns

`quotaRankAndReserve` in full, with other requests meanwhile. The chain is what is left of the turns
when the refused attempts are dropped (`quotaRankAndReserve_turns`), except that the route of the
session goes first (`pinned_goes_first`).
-/

namespace CalvoProxy

open List ScoredService

variable {attempts chain dropped kept more ranked : List ModelAttempt} {g : ProviderGroup}
  {a : ModelAttempt} {route : AffinityRoute} {w w' : World} {left : Nat}

/-- A moment at which other requests may act, with the attempts or groups still to come. -/
inductive RankingMoment
  | fitting (left : Nat)
  | pressure (left : Nat)
  | planning (left : Nat)
  | reserving (left : Nat)

/-- A call of `quotaRankAndReserve`: what it reads, and what other requests do meanwhile. Both
lookups of the route of the session give the same. -/
structure RankingCall where
  scored : ScoredService
  scoring : Bool
  env : ScoreEnv
  ranking : GroupRanking
  estimate : QuotaEstimate
  now : Time
  ticks : Nat → Tick
  others : RankingMoment → RouterService → RouterService

def World.meanwhile (others : RouterService → RouterService) (w : World) : World :=
  { w with service := others w.service }

namespace RankingCall

variable (cfg : Settings) (c : RankingCall)

def base (attempts : List ModelAttempt) : List ModelAttempt :=
  applySessionAffinity c.ranking.preferred
    (c.scored.rankAttemptsByScore cfg c.scoring c.env attempts)

def fits (a : ModelAttempt) (w : World) : World × Bool :=
  if w.service.quotaAttemptAvailable cfg a c.now then
    w.quotaCanFit cfg a (cfg.providerCredential a) c.estimate c.now
  else (w, false)

def fitting : List ModelAttempt → World → World × List ModelAttempt
  | [], w => (w, [])
  | a :: rest, w =>
    let a := cfg.filled a
    let (w, ok) := c.fits cfg a (w.meanwhile (c.others (.fitting rest.length)))
    let (w, kept) := fitting rest w
    (w, if ok then a :: kept else kept)

def pressures : List ProviderGroup → World → World × List ProviderGroup
  | [], w => (w, [])
  | g :: rest, w =>
    match g.attempts with
    | [] => pressures rest w
    | a :: _ =>
      let (w, pressure) := (w.meanwhile (c.others (.pressure rest.length))).quotaPressure cfg a
        (cfg.providerCredential a) c.estimate c.now
      let (w, groups) := pressures rest w
      (w, { g with pressure := pressure } :: groups)

def groups (attempts : List ModelAttempt) (w : World) : World × List ProviderGroup :=
  let (w, kept) := c.fitting cfg (c.base cfg attempts) w
  let (w, groups) := c.pressures cfg (World.groupAttempts kept) w
  (w, c.ranking.sortGroups groups)

def reserveOne (left : Nat) (a : ModelAttempt) (w : World) : Option (World × Option QuotaTicket) :=
  let (w, reservations) := (w.meanwhile (c.others (.planning left))).quotaReservations cfg a
    (cfg.providerCredential a) c.estimate c.now
  (w.meanwhile (c.others (.reserving left))).reserveAll reservations
    { c.ticks left with now := c.now }

def reserved (ticket : QuotaTicket) (a : ModelAttempt) : ModelAttempt :=
  { a with
    quotaTicket := ticket
    quotaEstimate := providerQuotaEstimate cfg a c.estimate }

def reserveFirst : List ModelAttempt → World → Option (World × List ModelAttempt)
  | [], w => some (w, [])
  | a :: rest, w =>
    match c.reserveOne cfg rest.length a w with
    | none => none
    | some (w, some ticket) => some (w, c.reserved cfg ticket a :: rest)
    | some (w, none) => reserveFirst rest w

def quotaRankAndReserve (attempts : List ModelAttempt) (w : World) :
    Option (World × List ModelAttempt) :=
  if attempts.isEmpty then some (w, [])
  else
    let (w, groups) := c.groups cfg attempts w
    c.reserveFirst cfg (World.interleave groups) w

def asked : List ModelAttempt → World → List (ModelAttempt × World)
  | [], _ => []
  | a :: rest, w =>
    let a := cfg.filled a
    let w := w.meanwhile (c.others (.fitting rest.length))
    (a, w) :: asked rest (c.fits cfg a w).1

variable {cfg c}

theorem asked_attempts (attempts : List ModelAttempt) (w : World) :
    (c.asked cfg attempts w).map Prod.fst = attempts.map cfg.filled := by
  induction attempts generalizing w with
  | nil => rfl
  | cons a rest ih => exact congrArg (cfg.filled a :: ·) (ih _)

theorem fitting_eq (attempts : List ModelAttempt) (w : World) : (c.fitting cfg attempts w).2 =
      ((c.asked cfg attempts w).filter fun q => (c.fits cfg q.1 q.2).2).map Prod.fst := by
  induction attempts generalizing w with
  | nil => rfl
  | cons a rest ih =>
    unfold fitting asked
    simp only [filter_cons, ih]
    split
    · rfl
    · rfl

theorem fitting_sublist (attempts : List ModelAttempt) (w : World) :
    (c.fitting cfg attempts w).2.Sublist (attempts.map cfg.filled) := by
  rw [fitting_eq, ← asked_attempts (c := c) attempts w]
  exact filter_sublist.map Prod.fst

def shape (g : ProviderGroup) : ProviderID × List ModelAttempt := (g.provider, g.attempts)

theorem groupAttempts_nonempty (hg : g ∈ World.groupAttempts attempts) : g.attempts ≠ [] := by
  obtain ⟨p, hp, rfl⟩ := mem_map.mp hg
  obtain ⟨a, ha, rfl⟩ := mem_map.mp (mem_eraseDups.mp hp)
  exact ne_nil_of_mem (mem_filter.mpr ⟨ha, decide_eq_true rfl⟩)

theorem pressures_shape {groups : List ProviderGroup} (h : ∀ g ∈ groups, g.attempts ≠ [])
    (w : World) : (c.pressures cfg groups w).2.map shape = groups.map shape := by
  induction groups generalizing w with
  | nil => rfl
  | cons g rest ih =>
    have hrest := ih fun g' hg' => h g' (mem_cons_of_mem g hg')
    unfold pressures
    split
    · next hempty => exact absurd hempty (h g mem_cons_self)
    · exact congrArg (shape g :: ·) (hrest _)

abbrev eligible (cfg : Settings) (c : RankingCall) (attempts : List ModelAttempt) (w : World) :
    List ModelAttempt :=
  (c.fitting cfg (c.base cfg attempts) w).2

structure Grouped (kept : List ModelAttempt) (groups : List ProviderGroup) : Prop where
  providers : (groups.map (·.provider)).Nodup
  covers : ∀ a ∈ kept, ∃ g ∈ groups, g.provider = a.provider
  attempts : ∀ g ∈ groups, g.attempts = kept.filter fun a => a.provider = g.provider

theorem Grouped.of_perm {groups groups' : List ProviderGroup}
    (h : Grouped kept groups) (hperm : groups'.Perm groups) : Grouped kept groups' where
  providers := ((hperm.map (·.provider)).nodup_iff).mpr h.providers
  covers := by
    intro a ha
    obtain ⟨g, hg, hp⟩ := h.covers a ha
    exact ⟨g, hperm.mem_iff.mpr hg, hp⟩
  attempts g hg := h.attempts g (hperm.mem_iff.mp hg)

theorem Grouped.of_shape {groups groups' : List ProviderGroup}
    (h : Grouped kept groups) (hshape : groups'.map shape = groups.map shape) :
    Grouped kept groups' := by
  have hproviders : groups'.map (·.provider) = groups.map (·.provider) := by
    simpa [map_map, Function.comp_def, shape] using congrArg (List.map Prod.fst) hshape
  refine ⟨hproviders ▸ h.providers, fun a ha => ?_, fun g hg => ?_⟩
  · obtain ⟨g, hg, hp⟩ := h.covers a ha
    have hmem : a.provider ∈ groups'.map (·.provider) :=
      hproviders ▸ hp ▸ mem_map_of_mem hg
    obtain ⟨g', hg', hp'⟩ := mem_map.mp hmem
    exact ⟨g', hg', hp'⟩
  · have hmem : shape g ∈ groups.map shape := hshape ▸ mem_map_of_mem hg
    obtain ⟨g', hg', heq⟩ := mem_map.mp hmem
    obtain ⟨hp, hattempts⟩ := Prod.mk.inj heq
    rw [← hattempts, ← hp]
    exact h.attempts g' hg'

theorem groupAttempts_grouped (kept : List ModelAttempt) :
    Grouped kept (World.groupAttempts kept) where
  providers := by
    have hsame : (World.groupAttempts kept).map (·.provider) =
        (kept.map (·.provider)).eraseDups := by
      unfold World.groupAttempts
      rw [map_map]
      exact map_id _
    rw [hsame]
    exact Grouping.eraseDups_nodup _
  covers := by
    intro a ha
    exact ⟨_, mem_map_of_mem (mem_eraseDups.mpr (mem_map_of_mem ha)), rfl⟩
  attempts := by
    intro g hg
    obtain ⟨p, -, rfl⟩ := mem_map.mp hg
    rfl

/-- The groups before they are sorted. -/
abbrev unsorted (cfg : Settings) (c : RankingCall) (attempts : List ModelAttempt) (w : World) :
    List ProviderGroup :=
  (c.pressures cfg (World.groupAttempts (c.eligible cfg attempts w))
    (c.fitting cfg (c.base cfg attempts) w).1).2

theorem unsorted_grouped (attempts : List ModelAttempt) (w : World) :
    Grouped (c.eligible cfg attempts w) (c.unsorted cfg attempts w) :=
  (groupAttempts_grouped _).of_shape (pressures_shape (fun _ hg => groupAttempts_nonempty hg) _)

theorem groups_grouped (attempts : List ModelAttempt) (w : World) :
    Grouped (c.eligible cfg attempts w) (c.groups cfg attempts w).2 :=
  (unsorted_grouped attempts w).of_perm (c.ranking.sortGroups_perm _)

namespace Grouped

variable {groups : List ProviderGroup} (h : Grouped kept groups)

include h

theorem provider_of_mem (hg : g ∈ groups) (ha : a ∈ g.attempts) : a.provider = g.provider := by
  rw [h.attempts g hg] at ha
  exact of_decide_eq_true (mem_filter.mp ha).2

theorem mem_interleave (ha : a ∈ World.interleave groups) : a ∈ kept := by
  obtain ⟨g, hg, ha⟩ := World.mem_interleave ha
  rw [h.attempts g hg] at ha
  exact (mem_filter.mp ha).1

theorem filter_interleave (p : ProviderID) :
    ((World.interleave groups).filter fun a => a.provider = p) =
      kept.filter fun a => a.provider = p := by
  by_cases hp : ∃ g ∈ groups, g.provider = p
  · obtain ⟨g, hg, rfl⟩ := hp
    rw [← h.attempts g hg]
    exact Grouping.filter_columns h.providers (fun _ hg _ ha => h.provider_of_mem hg ha) hg
      ((Grouping.le_foldl_max _ 0).2 _ (mem_map_of_mem hg))
  · have hnone : ∀ a ∈ kept, a.provider ≠ p := by
      rintro a ha rfl
      exact hp (h.covers a ha)
    have hkept : (kept.filter fun a => a.provider = p) = [] :=
      filter_eq_nil_iff.mpr fun a ha => by simpa using hnone a ha
    rw [hkept]
    exact filter_eq_nil_iff.mpr fun a ha => by simpa using hnone a (h.mem_interleave ha)

theorem alternate {b : ModelAttempt} {rest : List ModelAttempt}
    (hsuffix : a :: b :: rest <:+ World.interleave groups) (hsame : a.provider = b.provider) :
    ∀ d ∈ rest, d.provider = a.provider :=
  Grouping.columns_alternate h.providers (fun _ hg _ hx => h.provider_of_mem hg hx) _ hsuffix hsame

theorem interleave_perm : (World.interleave groups).Perm kept := by
  classical
  refine perm_iff_count.mpr fun a => ?_
  have hfilter := congrArg (List.count a) (h.filter_interleave a.provider)
  rwa [count_filter (by simp), count_filter (by simp)] at hfilter

end Grouped

/-! ## The route of the session -/

theorem applySessionAffinity_front (h : ∃ a ∈ attempts, route.isOf a = true) :
    ∃ a rest, applySessionAffinity (some route) attempts = a :: rest ∧ a ∈ attempts ∧
      route.isOf a = true := by
  obtain ⟨a, ha⟩ := Option.isSome_iff_exists.mp (List.find?_isSome.mpr h)
  refine ⟨a, attempts.eraseP route.isOf, ?_, mem_of_find?_eq_some ha, List.find?_some ha⟩
  unfold applySessionAffinity
  simp only [ha]

theorem asked_front (hpreferred : c.ranking.preferred = some route)
    (h : ∃ a ∈ attempts, route.isOf (cfg.filled a) = true)
    (w : World) :
    ∃ a w1 more, c.asked cfg (c.base cfg attempts) w = (a, w1) :: more ∧ route.isOf a = true := by
  have hbase : ∃ b rest, c.base cfg attempts = b :: rest ∧ route.isOf (cfg.filled b) = true := by
    unfold base
    rw [hpreferred]
    by_cases hshort : attempts.length < 2
    · -- a single attempt is not ranked, so that its provider is not filled in yet
      obtain ⟨a, ha, hroute⟩ := h
      have hpos := length_pos_of_mem ha
      obtain ⟨b, rfl⟩ := length_eq_one_iff.mp (by omega : attempts.length = 1)
      cases mem_singleton.mp ha
      rw [rankAttemptsByScore, if_pos hshort]
      exact ⟨a, [], perm_singleton.mp (applySessionAffinity_perm (some route) [a]), hroute⟩
    · rw [rankAttemptsByScore, if_neg hshort]
      have hperm := c.scored.rankAttemptsLocked_perm cfg c.scoring c.env attempts
      obtain ⟨a, ha, hroute⟩ := h
      obtain ⟨b, rest, heq, hb, hroute⟩ := applySessionAffinity_front
        ⟨cfg.filled a, hperm.mem_iff.mpr (mem_map_of_mem ha), hroute⟩
      obtain ⟨a', -, rfl⟩ := mem_map.mp (hperm.mem_iff.mp hb)
      exact ⟨_, rest, heq, (cfg.filled_filled a').symm ▸ hroute⟩
  obtain ⟨b, rest, heq, hroute⟩ := hbase
  rw [heq]
  exact ⟨_, _, _, rfl, hroute⟩

theorem groups_front (hpreferred : c.ranking.preferred = some route)
    (hkept : c.eligible cfg attempts w = a :: more) (hroute : route.isOf a = true) :
    ∃ g rest, (c.groups cfg attempts w).2 = g :: rest ∧
      g.attempts = a :: more.filter fun b => b.provider = a.provider := by
  have hgrouped := @unsorted_grouped cfg c attempts w
  obtain ⟨g, hg, hprovider⟩ := hgrouped.covers a (hkept ▸ mem_cons_self)
  have hattempts := hgrouped.attempts g hg
  rw [hkept, hprovider, filter_cons, if_pos (decide_eq_true rfl)] at hattempts
  have hown : c.ranking.isPreferred g = true := by
    unfold GroupRanking.isPreferred
    rw [hpreferred, hattempts]
    simp [hroute]
  -- the route has one provider
  have hother : ∀ g' ∈ c.unsorted cfg attempts w, g' ≠ g → c.ranking.isPreferred g' = false := by
    intro g' hg' hne
    have hdiffers : g'.provider ≠ g.provider := fun heq =>
      hne (inj_on_of_nodup_map hgrouped.providers hg' hg heq)
    unfold GroupRanking.isPreferred
    rw [hpreferred]
    refine any_eq_false.mpr fun b hb => ?_
    unfold AffinityRoute.isOf at hroute ⊢
    simp only [Bool.and_eq_true, decide_eq_true_eq] at hroute ⊢
    rintro ⟨hb', -⟩
    exact hdiffers (by rw [← hgrouped.provider_of_mem hg' hb, hb', ← hroute.1, hprovider])
  have hleast : ∀ g' ∈ c.unsorted cfg attempts w, g' ≠ g → c.ranking.less g g' = true := by
    intro g' hg' hne
    unfold GroupRanking.less
    simp [hown, hother g' hg' hne]
  have hhead := Insertion.head?_sort GroupRanking.less_asymm (hgrouped.providers.of_map _) hg hleast
  obtain ⟨rest, hsorted⟩ := List.head?_eq_some_iff.mp hhead
  exact ⟨g, rest, hsorted, hattempts⟩

theorem interleave_front (rest : List ProviderGroup) (h : g.attempts = a :: more) :
    ∃ tail, World.interleave (g :: rest) = a :: tail := by
  have hdepth := (Grouping.le_foldl_max ((g :: rest).map (·.attempts.length)) 0).2
    g.attempts.length (by rw [map_cons]; exact mem_cons_self)
  unfold World.interleave
  simp only
  generalize ((g :: rest).map (·.attempts.length)).foldl max 0 = depth at hdepth
  rw [h, length_cons] at hdepth
  cases depth with
  | zero => exact absurd hdepth (Nat.not_succ_le_zero _)
  | succ depth =>
    rw [range_succ_eq_map, flatMap_cons, filterMap_cons, h]
    exact ⟨_, rfl⟩

variable (cfg c) in
inductive Refusals (kept : List ModelAttempt) : List ModelAttempt → World → World → Prop
  | nil (w : World) : Refusals kept [] w w
  | cons {a : ModelAttempt} {rest : List ModelAttempt} {w w1 w' : World}
      (hrefused : c.reserveOne cfg (rest ++ kept).length a w = some (w1, none))
      (hrest : Refusals kept rest w1 w') : Refusals kept (a :: rest) w w'

variable (cfg c) in
inductive Granted : List ModelAttempt → World → World → List ModelAttempt → Prop
  | nil (w : World) : Granted [] w w []
  | cons {a : ModelAttempt} {rest : List ModelAttempt} {w w' : World} {ticket : QuotaTicket}
      (hgranted : c.reserveOne cfg rest.length a w = some (w', some ticket)) :
      Granted (a :: rest) w w' (c.reserved cfg ticket a :: rest)

theorem reserveFirst_cases (h : c.reserveFirst cfg ranked w = some (w', chain)) :
    ∃ dropped kept w1, ranked = dropped ++ kept ∧ c.Refusals cfg kept dropped w w1 ∧
      c.Granted cfg kept w1 w' chain := by
  induction ranked generalizing w with
  | nil =>
    cases h
    exact ⟨[], [], w', rfl, .nil w', .nil w'⟩
  | cons a rest ih =>
    unfold reserveFirst at h
    split at h
    · cases h
    · next w1 ticket hgranted =>
      cases h
      exact ⟨[], a :: rest, w, rfl, .nil w, .cons hgranted⟩
    · next w1 hrefused =>
      obtain ⟨dropped, kept, w2, rfl, hdropped, hkept⟩ := ih h
      exact ⟨a :: dropped, kept, w2, rfl, .cons hrefused hdropped, hkept⟩

theorem reserveFirst_refused (h : c.Refusals cfg [] ranked w w') :
    c.reserveFirst cfg ranked w = some (w', []) := by
  induction h with
  | nil w => rfl
  | cons hrefused _ ih =>
    rw [append_nil] at hrefused
    unfold reserveFirst
    rw [hrefused]
    exact ih

/-! ## The calls on the ledger -/

def Quietly (w w' : World) : Prop :=
  ∃ es : List QuotaLedger.LedgerEvent, w'.log = w.log ++ es.map Effect.ledger ∧
    ∀ e ∈ es, QuietCall e

namespace Quietly

variable {w'' : World}

theorem refl (w : World) : Quietly w w :=
  ⟨[], by simp, fun _ he => absurd he not_mem_nil⟩

theorem trans (h : Quietly w w') (h' : Quietly w' w'') : Quietly w w'' := by
  obtain ⟨es, hlog, hquiet⟩ := h
  obtain ⟨es', hlog', hquiet'⟩ := h'
  refine ⟨es ++ es', by rw [hlog', hlog, map_append, append_assoc], fun e he => ?_⟩
  rcases mem_append.mp he with he | he
  · exact hquiet e he
  · exact hquiet' e he

theorem of_reads (h : Reads w w') : Quietly w w' := by
  obtain ⟨es, hrun, hquiet⟩ := h.calls
  exact ⟨es, hrun.log, hquiet⟩

theorem meanwhile (others : RouterService → RouterService) (w : World) :
    Quietly w (w.meanwhile others) := refl w

theorem fits (a : ModelAttempt) (w : World) : Quietly w (c.fits cfg a w).1 := by
  unfold RankingCall.fits
  split
  · exact of_reads ((Inquiry.fits cfg a _ c.estimate c.now).reads w)
  · exact refl w

theorem fitting (attempts : List ModelAttempt) (w : World) :
    Quietly w (c.fitting cfg attempts w).1 := by
  induction attempts generalizing w with
  | nil => exact refl w
  | cons a rest ih => exact ((meanwhile _ w).trans (fits _ _)).trans (ih _)

theorem pressures (groups : List ProviderGroup) (w : World) :
    Quietly w (c.pressures cfg groups w).1 := by
  induction groups generalizing w with
  | nil => exact refl w
  | cons g rest ih =>
    unfold RankingCall.pressures
    split
    · exact ih w
    · exact ((meanwhile _ w).trans (of_reads ((Inquiry.quotaPressure (K := fun _ => True)
        (C := fun _ => True) (fun _ _ => trivial) c.estimate).reads _))).trans (ih _)

theorem groups (attempts : List ModelAttempt) (w : World) : Quietly w (c.groups cfg attempts w).1 :=
  (fitting (c.base cfg attempts) w).trans (pressures _ _)

end Quietly

/-- The calls are quiet but for the last, which issues a new ticket and leaves the others. -/
structure Issued (w w' : World) (ticket : QuotaTicket) : Prop where
  valid : ticket.valid = true
  calls : ∃ w1 e, Quietly w w1 ∧ w'.log = w1.log ++ [Effect.ledger e] ∧
    e.output.issued = some ticket ∧ e.before.held ticket = none ∧
    ∃ state, ∀ t, w'.service.quota.held t = if t = ticket then some state else e.before.held t

theorem reserveOne_calls {ticket : Option QuotaTicket}
    (h : c.reserveOne cfg left a w = some (w', ticket)) :
    ∃ w1 rs t, Quietly w w1 ∧ w1.reserveAll rs t = some (w', ticket) :=
  ⟨_, _, _, ((Quietly.meanwhile (c.others (.planning left)) w).trans (.of_reads
    (Reads.quotaReservations cfg a (cfg.providerCredential a) c.estimate c.now _))).trans
      (.meanwhile (c.others (.reserving left)) _), h⟩

theorem reserveOne_refused (h : c.reserveOne cfg left a w = some (w', none)) : Quietly w w' := by
  obtain ⟨w1, rs, t, hquiet, hreserve⟩ := reserveOne_calls h
  have hrefused : Reserves w1 w' none := ⟨.refl w1, hreserve⟩
  exact hquiet.trans (.of_reads hrefused.reads)

theorem reserveOne_granted {ticket : QuotaTicket}
    (h : c.reserveOne cfg left a w = some (w', some ticket)) : Issued w w' ticket := by
  obtain ⟨w1, rs, t, hquiet, hreserve⟩ := reserveOne_calls h
  have hlog := (QuotaRun.reserveAll hreserve).1.log
  obtain ⟨⟨quota, ticket'⟩, hledger, heq⟩ := Option.map_eq_some_iff.mp hreserve
  cases heq
  obtain ⟨state, -, hvalid, -, hnew, hheld⟩ := QuotaLedger.reserveAll_issues hledger
  exact ⟨hvalid, w1, _, hquiet, hlog, rfl, hnew, state, hheld⟩

theorem Refusals.quietly (h : c.Refusals cfg kept dropped w w') : Quietly w w' := by
  induction h with
  | nil w => exact .refl w
  | cons hrefused _ ih => exact (reserveOne_refused hrefused).trans ih

theorem Issued.after {w w1 w' : World} {ticket : QuotaTicket} (hquiet : Quietly w w1)
    (h : Issued w1 w' ticket) : Issued w w' ticket := by
  obtain ⟨hvalid, w2, e, hquiet', hrest⟩ := h
  exact ⟨hvalid, w2, e, hquiet.trans hquiet', hrest⟩

/-! ## The order within a provider -/

def pinned (c : RankingCall) (a : ModelAttempt) : Bool := c.ranking.preferred.any (·.isOf a)

/-- Of two attempts of a provider the one with the higher score goes first. -/
def ByScore (cfg : Settings) (c : RankingCall) (attempts : List ModelAttempt) : Prop :=
  attempts.Pairwise fun a b => a.provider = b.provider →
    c.scored.scoreForAttempt cfg c.env b ≤ c.scored.scoreForAttempt cfg c.env a

theorem rankAttemptsLocked_byScore (hscoring : c.scoring = true) (attempts : List ModelAttempt) :
    c.ByScore cfg (c.scored.rankAttemptsLocked cfg c.scoring c.env attempts) := by
  have hgrouped := groupAttempts_grouped (attempts.map cfg.filled)
  -- each group is sorted, and keeps its provider
  have hsorted : ∀ g ∈ (World.groupAttempts (attempts.map cfg.filled)).map
      (c.scored.sortGroup cfg c.scoring c.env),
      c.ByScore cfg g.attempts ∧ ∀ a ∈ g.attempts, a.provider = g.provider := by
    intro g hg
    obtain ⟨g0, hg0, rfl⟩ := mem_map.mp hg
    unfold sortGroup
    rw [if_pos hscoring]
    constructor
    · have hmerge : (g0.attempts.mergeSort fun a b =>
          c.scored.scoreForAttempt cfg c.env b ≤ c.scored.scoreForAttempt cfg c.env a).Pairwise
            fun a b => decide (c.scored.scoreForAttempt cfg c.env b ≤
              c.scored.scoreForAttempt cfg c.env a) = true := by
        refine pairwise_mergeSort (fun x y z hxy hyz => ?_) (fun x y => ?_) g0.attempts
        · exact decide_eq_true (Rat.le_trans (of_decide_eq_true hyz) (of_decide_eq_true hxy))
        · rw [Bool.or_eq_true, decide_eq_true_eq, decide_eq_true_eq]
          exact Rat.le_total
      exact hmerge.imp fun {a b} hle (_ : a.provider = b.provider) => of_decide_eq_true hle
    · intro a ha
      have hprovider := hgrouped.provider_of_mem hg0 ((mergeSort_perm _ _).mem_iff.mp ha)
      exact hprovider
  have hproviders : (((World.groupAttempts (attempts.map cfg.filled)).map
      (c.scored.sortGroup cfg c.scoring c.env)).map (·.provider)).Nodup := by
    rw [map_map]
    have hsame : ∀ g : ProviderGroup,
        (c.scored.sortGroup cfg c.scoring c.env g).provider = g.provider := by
      intro g
      unfold sortGroup
      split <;> rfl
    simpa only [Function.comp_def, hsame] using hgrouped.providers
  unfold rankAttemptsLocked
  simp only
  generalize (World.groupAttempts (attempts.map cfg.filled)).map
    (c.scored.sortGroup cfg c.scoring c.env) = groups at hsorted hproviders
  have hperm := mergeSort_perm groups fun g h =>
    c.scored.effectiveUse cfg c.scoring c.env g ≤ c.scored.effectiveUse cfg c.scoring c.env h
  generalize groups.mergeSort _ = ordered at hperm
  refine pairwise_flatMap.mpr ⟨fun g hg => (hsorted g (hperm.mem_iff.mp hg)).1, ?_⟩
  have hdistinct := pairwise_map.mp ((hperm.map (·.provider)).nodup_iff.mpr hproviders)
  refine hdistinct.imp_of_mem fun {g h} hg hh hne a ha b hb hsame => absurd ?_ hne
  rw [← (hsorted g (hperm.mem_iff.mp hg)).2 a ha, ← (hsorted h (hperm.mem_iff.mp hh)).2 b hb, hsame]

theorem base_byScore (hscoring : c.scoring = true) (attempts : List ModelAttempt) :
    c.ByScore cfg (((c.base cfg attempts).map cfg.filled).filter fun a => !c.pinned a) := by
  unfold base rankAttemptsByScore
  split
  · next hshort =>
    -- there is no pair
    have hlength := (applySessionAffinity_perm c.ranking.preferred attempts).length_eq
    have hshort : (((applySessionAffinity c.ranking.preferred attempts).map cfg.filled).filter
        fun a => !c.pinned a).length ≤ 1 := by
      have hle := length_filter_le (fun a => !c.pinned a)
        ((applySessionAffinity c.ranking.preferred attempts).map cfg.filled)
      rw [length_map] at hle
      omega
    generalize ((applySessionAffinity c.ranking.preferred attempts).map cfg.filled).filter
      (fun a => !c.pinned a) = given at hshort
    rcases given with _ | ⟨a, _ | ⟨b, given⟩⟩
    · exact .nil
    · exact pairwise_singleton _ a
    · exact absurd hshort (by simp)
  · have hranked : c.ByScore cfg (c.scored.rankAttemptsLocked cfg c.scoring c.env attempts) :=
      rankAttemptsLocked_byScore hscoring attempts
    have hperm := c.scored.rankAttemptsLocked_perm cfg c.scoring c.env attempts
    have hfilled : ∀ a ∈ applySessionAffinity c.ranking.preferred
        (c.scored.rankAttemptsLocked cfg c.scoring c.env attempts), cfg.filled a = a := by
      intro a ha
      have ha := (applySessionAffinity_perm _ _).mem_iff.mp ha
      obtain ⟨b, -, rfl⟩ := mem_map.mp (hperm.mem_iff.mp ha)
      exact cfg.filled_filled b
    rw [map_congr_left hfilled, map_id']
    refine List.Pairwise.sublist ?_ hranked
    unfold applySessionAffinity
    split
    · exact filter_sublist
    next route hroute =>
    split
    · exact filter_sublist
    next a hfound =>
    have hpinned : c.pinned a = true := by
      unfold pinned
      rw [hroute]
      show route.isOf a = true
      exact List.find?_some hfound
    rw [filter_cons, if_neg (by simp [hpinned])]
    exact filter_sublist.trans eraseP_sublist

/-- The chain that `quotaRankAndReserve` returns: `dropped` and `kept` are the turns of the
providers, and `chain` is `kept` with a ticket for its first attempt. -/
structure TakesTurns (cfg : Settings) (c : RankingCall) (attempts : List ModelAttempt) (w w' : World)
    (chain dropped kept : List ModelAttempt) : Prop where
  /-- Each provider has the attempts that have passed the filter, in their order. -/
  grouped : Grouped (c.eligible cfg attempts w) (c.groups cfg attempts w).2
  /-- All of them have a turn. -/
  turns : (World.interleave (c.groups cfg attempts w).2).Perm (c.eligible cfg attempts w)
  /-- The chain is a suffix of the turns; what is before it was refused. -/
  suffix : World.interleave (c.groups cfg attempts w).2 = dropped ++ kept
  reserves : ∃ w1, c.Refusals cfg kept dropped (c.groups cfg attempts w).1 w1 ∧
    c.Granted cfg kept w1 w' chain
  /-- Each provider keeps its order, by score off the route of the session. -/
  order : ∀ p, (kept.filter fun a => a.provider = p).Sublist ((c.base cfg attempts).map cfg.filled)
  scores : c.scoring = true → c.ByScore cfg (kept.filter fun a => !c.pinned a)
  passed : ∀ a ∈ kept, ∃ w1, (a, w1) ∈ c.asked cfg (c.base cfg attempts) w ∧
    (c.fits cfg a w1).2 = true
  /-- With two providers, the first two attempts have different ones. -/
  diverse : (∃ a ∈ chain, ∃ b ∈ chain, a.provider ≠ b.provider) →
    ∃ a b rest, chain = a :: b :: rest ∧ a.provider ≠ b.provider
  /-- The first attempt has the only ticket that was issued. -/
  ticket : chain = [] ∧ Quietly w w' ∨ ∃ first rest, chain = first :: rest ∧
    Issued w w' first.quotaTicket ∧ (Unreserved attempts → Unreserved rest)
  /-- The chain is empty exactly if every attempt that has passed is refused. -/
  empty : chain = [] ↔ ∃ w1, c.Refusals cfg [] (World.interleave (c.groups cfg attempts w).2)
    (c.groups cfg attempts w).1 w1
  /-- An attempt on the route of the session is asked about first, and goes first if it is not
  refused. -/
  route : ∀ route, c.ranking.preferred = some route →
    (∃ a ∈ attempts, route.isOf (cfg.filled a) = true) →
    ∃ a w1 more, c.asked cfg (c.base cfg attempts) w = (a, w1) :: more ∧ route.isOf a = true ∧
      ((c.fits cfg a w1).2 = true →
        (∃ rest, dropped = a :: rest) ∨ ∃ ticket rest, chain = c.reserved cfg ticket a :: rest)

section Kept

variable (hsuffix : World.interleave (c.groups cfg attempts w).2 = dropped ++ kept)

include hsuffix

theorem kept_order (p : ProviderID) :
    (kept.filter fun a => a.provider = p).Sublist ((c.base cfg attempts).map cfg.filled) := by
  have hkept : (kept.filter fun a => a.provider = p).Sublist
      ((c.eligible cfg attempts w).filter fun a => a.provider = p) := by
    rw [← (groups_grouped attempts w).filter_interleave p, hsuffix]
    exact (sublist_append_right dropped kept).filter _
  exact hkept.trans (filter_sublist.trans (fitting_sublist _ w))

theorem kept_byScore (hscoring : c.scoring = true) :
    c.ByScore cfg (kept.filter fun a => !c.pinned a) := by
  refine pairwise_iff_forall_sublist.mpr fun {a b} hpair hsame => ?_
  refine pairwise_iff_forall_sublist.mp (base_byScore hscoring attempts) ?_ hsame
  -- the pair is one of the provider, and off the route
  have hprovider : [a, b].filter (fun x => x.provider = a.provider) = [a, b] := by
    simp [hsame]
  have hoff := hpair.filter fun x => x.provider = a.provider
  rw [hprovider, filter_comm] at hoff
  exact hoff.trans ((kept_order hsuffix a.provider).filter _)

theorem kept_eligible (ha : a ∈ kept) : a ∈ c.eligible cfg attempts w :=
  (groups_grouped attempts w).mem_interleave (hsuffix ▸ mem_append_right dropped ha)

theorem kept_passed (ha : a ∈ kept) :
    ∃ w1, (a, w1) ∈ c.asked cfg (c.base cfg attempts) w ∧ (c.fits cfg a w1).2 = true := by
  have heligible := kept_eligible hsuffix ha
  rw [eligible, fitting_eq] at heligible
  obtain ⟨⟨b, w1⟩, hasked, rfl⟩ := mem_map.mp heligible
  exact ⟨w1, mem_filter.mp hasked⟩

theorem kept_diverse (htwo : ∃ a ∈ kept, ∃ b ∈ kept, a.provider ≠ b.provider) :
    ∃ a b rest, kept = a :: b :: rest ∧ a.provider ≠ b.provider := by
  obtain ⟨a, ha, b, hb, hne⟩ := htwo
  rcases kept with _ | ⟨x, _ | ⟨y, rest⟩⟩
  · exact absurd ha not_mem_nil
  · rw [mem_singleton.mp ha, mem_singleton.mp hb] at hne
    exact absurd rfl hne
  · refine ⟨x, y, rest, rfl, fun hsame => hne ?_⟩
    have hrest := (groups_grouped attempts w).alternate ⟨dropped, hsuffix.symm⟩ hsame
    have hall : ∀ d ∈ x :: y :: rest, d.provider = x.provider := by
      intro d hd
      rcases mem_cons.mp hd with rfl | hd
      · rfl
      · rcases mem_cons.mp hd with rfl | hd
        · exact hsame.symm
        · exact hrest d hd
    rw [hall a ha, hall b hb]

theorem kept_unreserved (h : Unreserved attempts) : Unreserved kept := by
  intro a ha
  obtain ⟨b, hb, rfl⟩ := mem_map.mp ((fitting_sublist _ w).subset (kept_eligible hsuffix ha))
  have hb := (applySessionAffinity_perm _ _).mem_iff.mp hb
  unfold rankAttemptsByScore at hb
  split at hb
  · exact h b hb
  · have hperm := c.scored.rankAttemptsLocked_perm cfg c.scoring c.env attempts
    obtain ⟨b', hb', rfl⟩ := mem_map.mp (hperm.mem_iff.mp hb)
    exact h b' hb'

end Kept

/-- The chain is what is left of the turns that the providers take. -/
theorem quotaRankAndReserve_turns (h : c.quotaRankAndReserve cfg attempts w = some (w', chain)) :
    ∃ dropped kept, c.TakesTurns cfg attempts w w' chain dropped kept := by
  have hreserve : c.reserveFirst cfg (World.interleave (c.groups cfg attempts w).2)
      (c.groups cfg attempts w).1 = some (w', chain) := by
    unfold quotaRankAndReserve at h
    split at h
    · next hempty =>
      cases isEmpty_iff.mp hempty
      have hbase : c.base cfg [] = [] := perm_nil.mp (applySessionAffinity_perm _ [])
      unfold groups
      rw [hbase]
      exact h
    · exact h
  obtain ⟨dropped, kept, w1, hsuffix, hrefused, hgranted⟩ := reserveFirst_cases hreserve
  have hquiet : Quietly w w1 := (Quietly.groups attempts w).trans hrefused.quietly
  have hgrouped : Grouped (c.eligible cfg attempts w) (c.groups cfg attempts w).2 :=
    groups_grouped attempts w
  refine ⟨dropped, kept, hgrouped, hgrouped.interleave_perm, hsuffix, ⟨w1, hrefused, hgranted⟩,
    kept_order hsuffix, fun hscoring => kept_byScore hsuffix hscoring,
    fun a ha => kept_passed hsuffix ha, ?diverse, ?ticket, ?empty, ?route⟩
  case diverse =>
    rintro ⟨x, hx, y, hy, hne⟩
    cases hgranted with
    | nil => exact absurd hx not_mem_nil
    | @cons a rest _ _ ticket _ =>
      have hprovider : ∀ z ∈ c.reserved cfg ticket a :: rest,
          ∃ z' ∈ a :: rest, z'.provider = z.provider := by
        intro z hz
        rcases mem_cons.mp hz with rfl | hz
        · exact ⟨a, mem_cons_self, rfl⟩
        · exact ⟨z, mem_cons_of_mem a hz, rfl⟩
      obtain ⟨x', hx', hxp⟩ := hprovider x hx
      obtain ⟨y', hy', hyp⟩ := hprovider y hy
      obtain ⟨_, _, _, heq, hfirst⟩ := kept_diverse hsuffix ⟨x', hx', y', hy', by rwa [hxp, hyp]⟩
      cases heq
      exact ⟨_, _, _, rfl, hfirst⟩
  case ticket =>
    cases hgranted with
    | nil => exact .inl ⟨rfl, hquiet⟩
    | cons hone =>
      refine .inr ⟨_, _, rfl, (reserveOne_granted hone).after hquiet, fun hunreserved => ?_⟩
      exact (kept_unreserved hsuffix hunreserved).subset fun b hb => mem_cons_of_mem _ hb
  case empty =>
    constructor
    · rintro rfl
      cases hgranted
      rw [append_nil] at hsuffix
      exact ⟨_, hsuffix ▸ hrefused⟩
    · rintro ⟨w2, hall⟩
      have hnone := reserveFirst_refused hall
      rw [hreserve] at hnone
      cases hnone
      rfl
  case route =>
    intro route hpreferred hon
    obtain ⟨a, w2, more, hasked, hroute⟩ := asked_front hpreferred hon w
    refine ⟨a, w2, more, hasked, hroute, fun hfits => ?_⟩
    have hkept : c.eligible cfg attempts w =
        a :: (more.filter fun q => (c.fits cfg q.1 q.2).2).map Prod.fst := by
      rw [eligible, fitting_eq, hasked, filter_cons, if_pos hfits, map_cons]
    obtain ⟨g, rest, hgroups, hattempts⟩ := groups_front hpreferred hkept hroute
    obtain ⟨tail, hfront⟩ := interleave_front rest hattempts
    rw [hgroups, hfront] at hsuffix
    cases dropped with
    | cons b dropped =>
      obtain ⟨rfl, -⟩ := List.cons.inj hsuffix
      exact .inl ⟨dropped, rfl⟩
    | nil =>
      rw [nil_append] at hsuffix
      subst hsuffix
      cases hgranted with
      | cons _ => exact .inr ⟨_, _, rfl⟩

end RankingCall

/-! ## A session that stays on its route -/

def sessionAttempts : List ModelAttempt :=
  [{ demoAttempt with provider := .groq }, { demoAttempt with provider := .groq, model := "n" },
    { demoAttempt with provider := .cerebras }]

/-- The session has used the model with the lower score. -/
def sessionService : ScoredService where
  service :=
    { demoWorld.service with
      modelBreakers :=
        ((AList.insert "default:groq:m" (scoredState (9 / 10)) ∅).insert "default:groq:n"
          (scoredState (1 / 10))).insert "default:cerebras:m" (scoredState (5 / 10)) }
  providerAttempts := ∅
  providerBalance := ∅

def sessionCall : RankingCall where
  scored := sessionService
  scoring := true
  env := bandEnv
  ranking := sessionService.ranking bandSettings bandEnv (some ⟨.groq, "n"⟩) (fun _ => 0)
    (fun _ => 0) sessionAttempts
  estimate := ⟨1, 2, 1, 1, true⟩
  now := 1
  ticks := fun _ => ⟨1, []⟩
  others := fun _ s => s

def sessionWorld : World := { demoWorld with service := sessionService.service }

theorem sessionAttempts_ranked :
    sessionService.rankAttemptsByScore bandSettings true bandEnv sessionAttempts =
      sessionAttempts := by
  have hgroups : (World.groupAttempts (sessionAttempts.map bandSettings.filled)).map
      (sessionService.sortGroup bandSettings true bandEnv) =
        [⟨.groq, sessionAttempts.take 2, none⟩, ⟨.cerebras, sessionAttempts.drop 2, none⟩] := by
    have hplain : World.groupAttempts (sessionAttempts.map bandSettings.filled) =
        [⟨.groq, sessionAttempts.take 2, none⟩, ⟨.cerebras, sessionAttempts.drop 2, none⟩] := by rfl
    rw [hplain]
    simp only [map_cons, map_nil, sortGroup, if_true]
    rw [mergeSort_of_pairwise (by decide +kernel), mergeSort_of_pairwise (by decide +kernel)]
  unfold rankAttemptsByScore rankAttemptsLocked
  rw [if_neg (by decide), hgroups]
  dsimp only
  rw [mergeSort_of_pairwise (by decide +kernel)]
  rfl

theorem sessionCall_chain :
    (sessionCall.quotaRankAndReserve bandSettings sessionAttempts sessionWorld).map
      (fun r => r.2.map fun a =>
        (a.provider, sessionCall.scored.scoreForAttempt bandSettings sessionCall.env a)) =
        some [(.groq, 1 / 10), (.cerebras, 5 / 10), (.groq, 9 / 10)] := by
  unfold RankingCall.quotaRankAndReserve RankingCall.groups RankingCall.base
  rw [show sessionCall.scored.rankAttemptsByScore bandSettings sessionCall.scoring sessionCall.env
    sessionAttempts = sessionAttempts from sessionAttempts_ranked]
  decide +kernel

/-- A pinned model goes before one with a higher score. -/
theorem pinned_goes_first : ∃ w' chain,
      sessionCall.quotaRankAndReserve bandSettings sessionAttempts sessionWorld = some (w', chain) ∧
        ¬ sessionCall.ByScore bandSettings chain := by
  obtain ⟨⟨w', chain⟩, hcall, hchain⟩ := Option.map_eq_some_iff.mp sessionCall_chain
  refine ⟨w', chain, hcall, fun hscore => ?_⟩
  obtain ⟨a, rest, rfl, ha, hrest⟩ := map_eq_cons_iff.mp hchain
  obtain ⟨a', rest, rfl, -, hrest⟩ := map_eq_cons_iff.mp hrest
  obtain ⟨b, rest, rfl, hb, -⟩ := map_eq_cons_iff.mp hrest
  obtain ⟨hagroq, hascore⟩ := Prod.mk.inj ha
  obtain ⟨hbgroq, hbscore⟩ := Prod.mk.inj hb
  have hmem : b ∈ a' :: b :: rest := mem_cons_of_mem a' mem_cons_self
  have hle := (pairwise_cons.mp hscore).1 b hmem (hagroq.trans hbgroq.symm)
  rw [hascore, hbscore] at hle
  exact absurd hle (by decide +kernel)

theorem sessionCall_turns : ∃ w' chain dropped kept,
      sessionCall.quotaRankAndReserve bandSettings sessionAttempts sessionWorld = some (w', chain) ∧
        sessionCall.TakesTurns bandSettings sessionAttempts sessionWorld w' chain dropped kept ∧
        chain.map (·.provider) = [.groq, .cerebras, .groq] := by
  obtain ⟨⟨w', chain⟩, hcall, hchain⟩ := Option.map_eq_some_iff.mp sessionCall_chain
  obtain ⟨dropped, kept, hturns⟩ := RankingCall.quotaRankAndReserve_turns hcall
  have hproviders := congrArg (List.map Prod.fst) hchain
  rw [map_map] at hproviders
  exact ⟨w', chain, dropped, kept, hcall, hturns, hproviders⟩

end CalvoProxy
