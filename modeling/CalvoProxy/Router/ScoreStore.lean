import CalvoProxy.Quota.Reading
import CalvoProxy.Router.Service

/-!
# The score store

`router_scoring_store.go`: what is written to the score file and what a new process takes out of it.
A file is the value that is encoded; of a bucket it keeps the observation only.
-/

namespace CalvoProxy

structure PersistedScore where
  score : Rat
  scoreUpdatedAt : Time
  scoreAttemptSeq : Int
  successes : Nat
deriving DecidableEq

structure PersistedQuota where
  provider : String
  scope : String
  modelOrPool : String
  dimension : QuotaDimension
  window : QuotaWindow
  limit : Int64
  remaining : Int64
  resetAt : Time
  observedAt : Time
  source : QuotaSource
  confidence : QuotaConfidence
deriving DecidableEq

structure ScoreStoreFile where
  version : Nat
  savedAt : Time
  attemptSeq : Int
  models : GoMap String PersistedScore
  providerAttempts : GoMap String Int64
  providerBalance : GoMap String Int64
  quota : List PersistedQuota
deriving DecidableEq

def scoreStoreVersion : Nat := 2

structure ScoredService where
  service : RouterService
  providerAttempts : GoMap ProviderID Int64
  providerBalance : GoMap ProviderID Int64

def supportedDirectProviders : List ProviderID := [.openRouter, .cerebras, .groq, .ollama]

def supportedProvider (raw : String) : Option ProviderID :=
  supportedDirectProviders.find? fun p => p.text = GoString.toLower (GoString.trimSpace raw)

def QuotaSnapshot.persisted (q : QuotaSnapshot) : PersistedQuota where
  provider := q.key.provider
  scope := q.key.scope
  modelOrPool := q.key.modelOrPool
  dimension := q.key.dimension
  window := q.key.window
  limit := q.observation.limit
  remaining := q.observation.remaining
  resetAt := q.observation.resetAt
  observedAt := q.observation.observedAt
  source := q.observation.source
  confidence := q.observation.confidence

namespace ScoredService

def persistedCounts (counts : GoMap ProviderID Int64) : GoMap String Int64 :=
  counts.entries.foldl (fun out e => if 0 < e.2 then out.insert e.1.text e.2 else out) ∅

/-- `snapshotScores`; reading the buckets may drop some. -/
def snapshotScores (now : Time) (s : ScoredService) : ScoredService × ScoreStoreFile :=
  let models := s.service.modelBreakers.entries.foldl
    (fun (out : GoMap String PersistedScore) (e : Sigma fun _ : String => ModelBreakerState) =>
      -- a model that was never scored is left out
      if Time.isZero e.2.scoreUpdatedAt then out
      else out.insert e.1 ⟨e.2.score, e.2.scoreUpdatedAt, e.2.scoreAttemptSeq, e.2.successes⟩) ∅
  let (l, keys) := s.service.quota.keys now
  let (l, snapshots) := l.collect now keys
  ({ s with service := { s.service with quota := l } },
    { version := scoreStoreVersion
      savedAt := now
      attemptSeq := s.service.scoreAttempts
      models := models
      providerAttempts := persistedCounts s.providerAttempts
      providerBalance := persistedCounts s.providerBalance
      quota := snapshots.map QuotaSnapshot.persisted })

def restoreQuota (now : Time) (l : QuotaLedger) (p : PersistedQuota) : QuotaLedger :=
  match supportedProvider p.provider with
  | none => l
  | some provider =>
    if !Time.isZero p.resetAt && !Time.after p.resetAt now then l
    else
      (l.observe ⟨provider.text, p.scope, p.modelOrPool, p.dimension, p.window⟩
        ⟨p.limit, p.remaining, p.resetAt, p.source, p.confidence, p.observedAt⟩ now).1

def restoreCounts (order : List String) (saved : GoMap String Int64)
    (counts : GoMap ProviderID Int64) : GoMap ProviderID Int64 :=
  (saved.range order).foldl (fun out e =>
    match supportedProvider e.1 with
    | some provider => if (0 : Int64) ≤ e.2 then out.insert provider e.2 else out
    | none => out) counts

def restoreModel (known : String → Bool) (now : Time) (maxAge : Duration)
    (r : GoMap String ModelBreakerState × Nat) (key : String) (rec : PersistedScore) :
    GoMap String ModelBreakerState × Nat :=
  if !known key || Time.isZero rec.scoreUpdatedAt ||
      (0 < maxAge && maxAge < now - rec.scoreUpdatedAt) then r
  else
    let state := (r.1.lookup key).getD .empty
    (r.1.insert key { state with
      score := clamp01 rec.score
      scoreUpdatedAt := rec.scoreUpdatedAt
      scoreAttemptSeq := rec.scoreAttemptSeq
      successes := rec.successes }, r.2 + 1)

/-- `restoreScores`, in the `order` of the ranges, with the number of restored models. -/
def restoreScores (file : ScoreStoreFile) (known : String → Bool) (now : Time) (maxAge : Duration)
    (order : List String) (s : ScoredService) : ScoredService × Nat :=
  let quota := file.quota.foldl (restoreQuota now) s.service.quota
  let (models, restored) := (file.models.range order).foldl
    (fun r e => restoreModel known now maxAge r e.1 e.2) (s.service.modelBreakers, 0)
  let attempts := if 0 < restored ∧ s.service.scoreAttempts < file.attemptSeq then file.attemptSeq
    else s.service.scoreAttempts
  (⟨{ s.service with quota := quota, modelBreakers := models, scoreAttempts := attempts },
    restoreCounts order file.providerAttempts s.providerAttempts,
    restoreCounts order file.providerBalance s.providerBalance⟩, restored)

def fresh (self : LedgerId) : ScoredService := ⟨⟨.new self, ∅, ∅, ∅, 0⟩, ∅, ∅⟩

end ScoredService

end CalvoProxy
