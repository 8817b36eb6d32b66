import CalvoProxy.Lib.WriteBehind
import CalvoProxy.Router.Restart

/-!
# Saving the scores

The flusher and `Close` both call `SaveScores` and neither waits for the other (`WriteBehind`). The
file of a quiet state shows the latest scores if no call replaces a snapshot by an earlier one
(`saved_scores_latest`).
-/

namespace CalvoProxy

open WriteBehind Machine ScoredService

abbrev Saver := WriteBehind.State Nat ScoredService ScoreStoreFile

namespace Saver

abbrev Op := WriteBehind.Op Nat ScoredService

def step (s : Saver) (op : Op) : Option (Saver × Unit) :=
  WriteBehind.step snapshotScores s op

end Saver

theorem snapshotScores_reread (now : Time) (s : ScoredService) :
    QuotaLedger.Reread now s.service.quota (s.snapshotScores now).1.service.quota := by
  have hkeys : QuotaLedger.Reread now _ _ := .keysRead s.service.quota
  exact hkeys.trans (QuotaLedger.collect_eq now (s.service.quota.keys now).1
    (s.service.quota.keys now).2).1

theorem snapshotScores_tidy : Tidy snapshotScores := by
  intro s t t' ht
  have hquota : ((s.snapshotScores t).1.snapshotScores t').2.quota =
      (s.snapshotScores t').2.quota := by
    rw [snapshotScores_quota, snapshotScores_quota, ((snapshotScores_reread t s).later ht).reported]
  have hrest : ∀ quota : List PersistedQuota,
      { ((s.snapshotScores t).1.snapshotScores t').2 with quota := quota } =
        { (s.snapshotScores t').2 with quota := quota } := fun _ => rfl
  have hfile := hrest (s.snapshotScores t').2.quota
  rw [← hquota] at hfile
  exact hfile.trans (by rw [hquota])

/-- Once every change is marked and no call is under way, the file shows the latest scores. -/
theorem saved_scores_latest {start : ScoredService} {disk : Option ScoreStoreFile} {now : Time}
    {tr : List (Event Saver Saver.Op Unit)} {s : Saver}
    (hrun : Run Saver.step (State.start start disk now) tr s)
    (horder : ∀ e ∈ tr, InOrder e) (hquiet : s.Quiet) (hchanged : 0 < s.version) :
    (∃ t, t ≤ s.clock ∧ s.disk = some (s.latest.snapshotScores t).2) ∧
      ∀ t, s.clock ≤ t → (s.memory.snapshotScores t).2 = (s.latest.snapshotScores t).2 :=
  saved_of_inOrder snapshotScores_tidy hrun horder hquiet hchanged

def success (now : Time) : Saver.Op :=
  .mutate fun s => { s with service := s.service.recordSuccess demoSettings demoAttempt now }

def demoStart : Saver := State.start (.fresh 0) none 0

/-- `Close` starts to save the second success before the flusher has replaced the file, and replaces
it after that. -/
theorem two_saves_latest : ∃ tr s, Run Saver.step demoStart tr s ∧
    tr.map Event.input = [success 1, .mark, .swap 0, .snapshot 0 2,
      success 3, .mark, .swap 1, .snapshot 1 4, .replace 0, .replace 1] ∧
    ∃ t, s.disk = some (s.latest.snapshotScores t).2 ∧
      (s.latest.snapshotScores t).2.attemptSeq = 2 := by
  refine exists_run [success 1, .mark, .swap 0, .snapshot 0 2, success 3, .mark, .swap 1,
    .snapshot 1 4, .replace 0, .replace 1] rfl fun hrun => ⟨rfl, ?_⟩
  have hsaved := saved_scores_latest hrun (fun e he i version file hinput htaken => ?_)
    ⟨rfl, rfl, fun i => ?_⟩ (by decide)
  · obtain ⟨⟨t, -, hdisk⟩, -⟩ := hsaved
    exact ⟨t, hdisk, rfl⟩
  · -- only the last two steps replace the file
    iterate 8
      rcases he with _ | ⟨_, he⟩
      · cases hinput
    rcases he with _ | ⟨_, he⟩
    · exact Nat.zero_le version
    rcases he with _ | ⟨_, he⟩
    · cases hinput
      cases htaken
      decide
    · cases he
  · match i with
    | 0 => rfl
    | 1 => rfl
    | i + 2 => rfl

/-- `Close` saves the second success, and the flusher puts its older snapshot over it. -/
theorem flusher_overwrites_close : ∃ tr s, Run Saver.step demoStart tr s ∧
    tr.map Event.input = [success 1, .mark, .swap 0, .snapshot 0 2,
      success 3, .mark, .swap 1, .snapshot 1 4, .replace 1, .replace 0] ∧
    s.Quiet ∧ 0 < s.version ∧
    s.disk.map ScoreStoreFile.attemptSeq = some 1 ∧
    ∀ t, (s.memory.snapshotScores t).2.attemptSeq = 2 := by
  refine exists_run [success 1, .mark, .swap 0, .snapshot 0 2, success 3, .mark, .swap 1,
    .snapshot 1 4, .replace 1, .replace 0] rfl fun _ => ⟨rfl, ⟨rfl, rfl, fun i => ?_⟩, by decide,
      rfl, fun _ => rfl⟩
  match i with
  | 0 => rfl
  | 1 => rfl
  | i + 2 => rfl

end CalvoProxy
