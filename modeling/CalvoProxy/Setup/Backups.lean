import Mathlib.Algebra.Ring.Nat
import Mathlib.Data.Char
import Mathlib.Data.List.Lex
import CalvoProxy.Lib.GoMap
import CalvoProxy.Lib.Machine

/-!
# The backups of a configuration

`Apply` copies the configuration to a file named after the second, and `revertIntegration` restores
the file with the greatest name, which is that of the last `Apply`. A second `Apply` in one second
overwrites the backup of the first, and a configuration that has been removed is not restored; else
all is kept (`backups_kept_iff`). File operations succeed, in the years up to 9999, and the JSON
`null`, on which `Apply` panics, is left out.
-/

namespace CalvoProxy.Backups

open List Machine

abbrev Text := List Char

abbrev Bytes := List UInt8

/-- A number in decimal, with a fixed number of digits. -/
def digits : Nat → Nat → Text
  | 0, _ => []
  | k + 1, n => digits k (n / 10) ++ [Nat.digitChar (n % 10)]

/-- The layout `20060102T150405`: a second is the number with these 14 digits. -/
def stamp (now : Nat) : Text := digits 8 (now / 10 ^ 6) ++ 'T' :: digits 6 (now % 10 ^ 6)

def backupName (tool : Text) (now : Nat) : Text := tool ++ '-' :: (stamp now ++ ".bak".toList)

/-- `config` is `none` while there is no configuration file. -/
structure Files where
  config : Option Bytes
  backups : GoMap Text Bytes
  now : Nat

/-- The pattern `tool-*.bak`. -/
def isBackup (tool name : Text) : Bool :=
  (tool ++ ['-']).isPrefixOf name && ".bak".toList.isSuffixOf name

def latestBackup (tool : Text) (backups : GoMap Text Bytes) : Option Text :=
  (backups.keys.filter (isBackup tool)).max?

def revertIntegration (tool : Text) (s : Files) : Files :=
  match latestBackup tool s.backups, s.config with
  | some name, some _ => { s with config := s.backups.lookup name }
  | _, _ => s

/-- `Apply` with what the integration makes of the configuration, unless it refuses it; and the
edits of others, who may remove it. -/
inductive Op
  | apply (now : Nat) (update : Bytes → Option Bytes)
  | edit (config : Option Bytes)

/-- `Apply` returns the name of its backup, or fails before it makes one. -/
def step (tool : Text) (s : Files) : Op → Option (Files × Option Text)
  | .apply now update =>
    if s.now ≤ now ∧ now < 10 ^ 14 then
      match s.config, s.config.bind update with
      | some content, some updated =>
        let name := backupName tool now
        some (⟨some updated, s.backups.insert name content, now⟩, some name)
      | _, _ => some ({ s with now := now }, none)
    else none
  | .edit config => some ({ s with config := config }, none)

abbrev Change := Event Files Op (Option Text)

/-- An `Apply` that has made a backup. -/
def Applies (e : Change) (now : Nat) : Prop :=
  e.output.isSome = true ∧ ∃ update, e.input = .apply now update

/-- Every backup still holds what the configuration was before its `Apply`. -/
def Kept (tr : List Change) (s : Files) : Prop :=
  ∀ e ∈ tr, ∀ name, e.output = some name → s.backups.lookup name = e.before.config

/-- After the last `Apply`, the revert restores what was there before it. -/
def Reverts (tool : Text) (tr : List Change) (s : Files) : Prop :=
  ∀ e, tr.reverse.find? (·.output.isSome) = some e →
    (revertIntegration tool s).config = e.before.config

/-- Two `Apply`s in one second find the same configuration. -/
def SameContent (tr : List Change) : Prop :=
  ∀ e ∈ tr, ∀ e' ∈ tr, ∀ now, Applies e now → Applies e' now → e.before.config = e'.before.config

variable {tool name : Text} {s s' : Files} {tr : List Change} {config : Option Bytes} {m n k : Nat}
  {o : Option Text} {op : Op} {e : Change}

/-! ## Names order as seconds -/

theorem lt_append {a b : Text} (h : a < b) (hlength : a.length = b.length) (u v : Text) :
    a ++ u < b ++ v := by
  induction h with
  | nil => cases hlength
  | rel hlt => exact .rel hlt
  | cons _ ih => exact .cons (ih (Nat.succ.inj hlength))

theorem append_lt (a : Text) {u v : Text} (h : u < v) : a ++ u < a ++ v :=
  List.Lex.append_left _ h a

theorem length_digits (k n : Nat) : (digits k n).length = k := by
  induction k generalizing n with
  | zero => rfl
  | succ k ih => rw [digits, length_append, ih, length_singleton]

theorem digits_lt (hlt : m < n) (hn : n < 10 ^ k) : digits k m < digits k n := by
  induction k generalizing m n with
  | zero => omega
  | succ k ih =>
    rw [Nat.pow_succ] at hn
    rcases Nat.lt_or_eq_of_le (Nat.div_le_div_right hlt.le : m / 10 ≤ n / 10) with hdiv | hdiv
    · exact lt_append (ih hdiv (by omega)) (by rw [length_digits, length_digits]) _ _
    · have hdigit : ∀ a < 10, ∀ b < 10, a < b → Nat.digitChar a < Nat.digitChar b := by decide
      rw [digits, digits, hdiv]
      exact append_lt _ (.rel (hdigit _ (by omega) _ (by omega) (by omega)))

theorem backupName_lt (hlt : m < n) (hn : n < 10 ^ 14) : backupName tool m < backupName tool n := by
  refine append_lt tool (.cons (lt_append ?_ (by simp [stamp, length_digits]) _ _))
  rcases Nat.lt_or_eq_of_le (Nat.div_le_div_right hlt.le : m / 10 ^ 6 ≤ n / 10 ^ 6) with hdiv | hdiv
  · exact lt_append (digits_lt hdiv (by omega)) (by rw [length_digits, length_digits]) _ _
  · rw [stamp, stamp, hdiv]
    exact append_lt _ (.cons (digits_lt (by omega) (by omega)))

theorem backupName_inj (hm : m < 10 ^ 14) (hn : n < 10 ^ 14)
    (h : backupName tool m = backupName tool n) : m = n := by
  rcases Nat.lt_trichotomy m n with hlt | heq | hgt
  · exact absurd h (backupName_lt hlt hn).ne
  · exact heq
  · exact absurd h (backupName_lt hgt hm).ne'

theorem isBackup_backupName (tool : Text) (n : Nat) : isBackup tool (backupName tool n) = true := by
  rw [isBackup, Bool.and_eq_true, isPrefixOf_iff_prefix, isSuffixOf_iff_suffix]
  exact ⟨⟨stamp n ++ ".bak".toList, by simp [backupName]⟩, tool ++ '-' :: stamp n, by
    simp [backupName]⟩

/-! ## Runs -/

theorem step_cases (hs : step tool s op = some (s', o)) : s.now ≤ s'.now ∧
    (o = none ∧ s'.backups = s.backups ∨ ∃ update content, op = .apply s'.now update ∧
      s'.now < 10 ^ 14 ∧ s.config = some content ∧ o = some (backupName tool s'.now) ∧
      s'.backups = s.backups.insert (backupName tool s'.now) content) := by
  cases op with
  | edit config =>
    cases hs
    exact ⟨le_refl _, .inl ⟨rfl, rfl⟩⟩
  | apply now update =>
    simp only [step] at hs
    split at hs
    · next hnow =>
      split at hs
      · next content updated hcontent _ =>
        cases hs
        exact ⟨hnow.1, .inr ⟨update, content, rfl, hnow.2, hcontent, rfl, rfl⟩⟩
      · cases hs
        exact ⟨hnow.1, .inl ⟨rfl, rfl⟩⟩
    · cases hs

section Runs

variable (hrun : Run (step tool) ⟨config, ∅, 0⟩ tr s)

include hrun

theorem output_dated (he : e ∈ tr) (hname : e.output = some name) :
    ∃ now ≤ s.now, now < 10 ^ 14 ∧ Applies e now ∧ name = backupName tool now := by
  induction hrun with
  | start => cases he
  | @next tr s s' op o hrun hs ih =>
    obtain ⟨hle, hcase⟩ := step_cases hs
    rcases mem_append.mp he with hold | hnew
    · obtain ⟨now, hnow, hrest⟩ := ih hold
      exact ⟨now, hnow.trans hle, hrest⟩
    · rw [mem_singleton.mp hnew] at hname ⊢
      rcases hcase with ⟨rfl, -⟩ | ⟨update, content, rfl, hnow, -, rfl, -⟩
      · cases hname
      · exact ⟨s'.now, le_refl _, hnow, ⟨rfl, update, rfl⟩, (Option.some.inj hname).symm⟩

/-- A backup is what the last `Apply` with its name has found. -/
theorem lookup_backup (name : Text) : s.backups.lookup name =
      (tr.reverse.find? (·.output = some name)).bind (·.before.config) := by
  induction hrun with
  | start => rfl
  | @next tr s s' op o hrun hs ih =>
    rw [reverse_concat', find?_cons]
    rcases (step_cases hs).2 with ⟨rfl, hbackups⟩ | ⟨_, content, rfl, -, hcontent, rfl, hbackups⟩
    · rw [hbackups, ih]
      rfl
    · rw [hbackups, GoMap.lookup_insert_eq]
      split
      · next heq => simp [heq, hcontent]
      · next hne => simp [Ne.symm hne, ih]

theorem kept_iff : Kept tr s ↔ SameContent tr := by
  constructor
  · intro hkept e he e' he' now happlies happlies'
    have hfound : ∀ e ∈ tr, Applies e now → s.backups.lookup (backupName tool now) =
        e.before.config := by
      rintro e he ⟨hsome, update, hinput⟩
      obtain ⟨name, hname⟩ := Option.isSome_iff_exists.mp hsome
      obtain ⟨now', -, -, ⟨-, _, hinput'⟩, rfl⟩ := output_dated hrun he hname
      cases hinput.symm.trans hinput'
      exact hkept e he _ hname
    exact (hfound e he happlies).symm.trans (hfound e' he' happlies')
  · intro hsame e he name hname
    have hfound : (tr.reverse.find? (·.output = some name)).isSome :=
      find?_isSome.mpr ⟨e, mem_reverse.mpr he, decide_eq_true hname⟩
    obtain ⟨e', hlast⟩ := Option.isSome_iff_exists.mp hfound
    have hname' : e'.output = some name := by simpa using find?_some hlast
    have he' : e' ∈ tr := mem_reverse.mp (mem_of_find?_eq_some hlast)
    obtain ⟨now, -, hnow, happlies, rfl⟩ := output_dated hrun he hname
    obtain ⟨now', -, hnow', happlies', heq⟩ := output_dated hrun he' hname'
    rw [← backupName_inj hnow hnow' heq] at happlies'
    rw [lookup_backup hrun, hlast]
    exact hsame e' he' e he now happlies' happlies

theorem latestBackup_eq (hlast : tr.reverse.find? (·.output.isSome) = some e) :
    ∃ name content, latestBackup tool s.backups = some name ∧
      s.backups.lookup name = some content ∧ e.before.config = some content := by
  induction hrun with
  | start => cases hlast
  | @next tr s s' op o hrun hs ih =>
    rw [reverse_concat', find?_cons] at hlast
    rcases (step_cases hs).2 with ⟨rfl, hbackups⟩ | ⟨_, content, rfl, hnow, hcontent, rfl, hbackups⟩
    · rw [hbackups]
      exact ih hlast
    cases hlast
    refine ⟨backupName tool s'.now, content, ?_, by rw [hbackups, AList.lookup_insert], hcontent⟩
    refine max?_eq_some_iff.mpr ⟨mem_filter.mpr ⟨?_, isBackup_backupName tool _⟩, ?_⟩
    · rw [hbackups]
      exact (AList.mem_insert _).mpr (.inl rfl)
    · intro name hmem
      have hfound := AList.lookup_isSome.mpr (mem_filter.mp hmem).1
      rw [lookup_backup (hrun.next hs), Option.isSome_bind, Option.any_eq_true_iff_get] at hfound
      obtain ⟨hsome, -⟩ := hfound
      obtain ⟨e, he⟩ := Option.isSome_iff_exists.mp hsome
      have hname : e.output = some name := by simpa using find?_some he
      obtain ⟨now, hle, -, -, rfl⟩ := output_dated (hrun.next hs)
        (mem_reverse.mp (mem_of_find?_eq_some he)) hname
      rcases Nat.lt_or_eq_of_le hle with hlt | rfl
      · exact (backupName_lt hlt hnow).le
      · exact le_refl _

theorem reverts_iff : Reverts tool tr s ↔ (s.config = none → ∀ e ∈ tr, e.output = none) := by
  constructor
  · intro hreverts hgone e he
    by_contra hsome
    have hfound : (tr.reverse.find? (·.output.isSome)).isSome :=
      find?_isSome.mpr ⟨e, mem_reverse.mpr he, Option.isSome_iff_ne_none.mpr hsome⟩
    obtain ⟨e', hlast⟩ := Option.isSome_iff_exists.mp hfound
    obtain ⟨name, content, hlatest, -, hcontent⟩ := latestBackup_eq hrun hlast
    have := hreverts e' hlast
    rw [revertIntegration, hlatest, hgone, hcontent] at this
    cases hgone.symm.trans this
  · intro hthere e hlast
    obtain ⟨name, content, hlatest, hlookup, hcontent⟩ := latestBackup_eq hrun hlast
    cases hconfig : s.config with
    | none =>
      have hsome := find?_some hlast
      rw [hthere hconfig e (mem_reverse.mp (mem_of_find?_eq_some hlast))] at hsome
      cases hsome
    | some present =>
      rw [revertIntegration, hlatest, hconfig, hcontent]
      exact hlookup

end Runs

/-- Backups are kept and reverted to exactly if no two of one second differ and the configuration is
not removed. -/
theorem backups_kept_iff (hrun : Run (step tool) ⟨config, ∅, 0⟩ tr s) :
    Kept tr s ∧ Reverts tool tr s ↔
      SameContent tr ∧ (s.config = none → ∀ e ∈ tr, e.output = none) := by
  rw [kept_iff hrun, reverts_iff hrun]

def codex : Text := "codex".toList

/-- An `Apply` that adds a byte, an edit, and an `Apply` at `now`. -/
def twice (now : Nat) : List Op :=
  [.apply 20260101120000 fun c => some (c ++ [2]), .edit (some [3]),
    .apply now fun c => some (c ++ [2])]

/-- In two seconds the backups of `[1]` and `[3]` are both kept. -/
theorem backups_kept_apart : ∃ tr s, Run (step codex) ⟨some [1], ∅, 0⟩ tr s ∧
    tr.map Event.input = twice 20260101120001 ∧
    tr.map (fun e => e.output.bind s.backups.lookup) = [some [1], none, some [3]] ∧
    Kept tr s ∧ Reverts codex tr s := by
  refine exists_run (twice 20260101120001) rfl fun hrun =>
    ⟨rfl, by decide +kernel, (backups_kept_iff hrun).mpr ⟨?_, fun hgone => by cases hgone⟩⟩
  rintro e he e' he' now ⟨-, _, hinput⟩ ⟨-, _, hinput'⟩
  rcases he with _ | ⟨_, _ | ⟨_, _ | ⟨_, ⟨⟩⟩⟩⟩ <;>
    rcases he' with _ | ⟨_, _ | ⟨_, _ | ⟨_, ⟨⟩⟩⟩⟩ <;> cases hinput <;> cases hinput' <;> rfl

/-- Within a second the second backup replaces the first. -/
theorem second_backup_lost : ∃ tr s, Run (step codex) ⟨some [1], ∅, 0⟩ tr s ∧
    tr.map Event.input = twice 20260101120000 ∧
    tr.map (·.before.config) = [some [1], some [1, 2], some [3]] ∧
    tr.map (fun e => e.output.bind s.backups.lookup) = [some [3], none, some [3]] := by
  exact exists_run (twice 20260101120000) rfl fun _ => ⟨rfl, by decide +kernel⟩

end CalvoProxy.Backups
