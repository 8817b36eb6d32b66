import CalvoProxy.Lib.GoString
import Mathlib.Logic.Function.Basic

/-!
# Merged capabilities

`router_capabilities.go`: what is published of a model is what was derived of it, changed by the
entries of its override. Both parts are replaced as a whole, in any order.
-/

namespace CalvoProxy.Capabilities

open GoString Function

abbrev Auto := String → Option (String → Bool)

abbrev Overrides := String → Option (List String)

variable {overrides : Overrides} {auto : Auto} {model : String}

/-- An entry that starts with `!` takes a capability away. -/
def apply (set : String → Bool) (entry : String) : String → Bool :=
  let c := trimSpace entry
  if c = "" then set
  else if startsWith c "!" then update set (String.ofList (c.toList.drop 1)) false
  else update set c true

structure Index where
  caps : Auto
  overrides : Overrides
  auto : Auto

namespace Index

def rebuildLocked (idx : Index) : Index :=
  { idx with
    caps := fun model => match idx.overrides model with
      | none => idx.auto model
      | some list => some (list.foldl apply ((idx.auto model).getD fun _ => false)) }

def new (overrides : Overrides) : Index :=
  rebuildLocked ⟨fun _ => none, overrides, fun _ => none⟩

inductive Op
  | setAuto (auto : Auto)
  | setOverrides (overrides : Overrides)

def step (idx : Index) : Op → Index
  | .setAuto auto => rebuildLocked { idx with auto }
  | .setOverrides overrides => rebuildLocked { idx with overrides }

def known (idx : Index) (model : String) : Bool := (idx.caps (trimSpace model)).isSome

def satisfies (idx : Index) (model : String) (required : List String) : Bool :=
  if required.isEmpty then true
  else match idx.caps (trimSpace model) with
    | none => false
    | some set => required.all set

def has (idx : Index) (model c : String) : Bool := (idx.caps model).any (· c)

end Index

def names (c entry : String) : Option Bool :=
  let e := trimSpace entry
  if e = "" then none
  else if startsWith e "!" then if String.ofList (e.toList.drop 1) = c then some false else none
  else if e = c then some true else none

/-- The last entry about `c` decides, and without one what was derived. -/
def allowed (overrides : Overrides) (auto : Auto) (model c : String) : Bool :=
  (((overrides model).getD []).reverse.findSome? (names c)).getD ((auto model).any (· c))

theorem apply_eq (set : String → Bool) (c entry : String) :
    apply set entry c = (names c entry).getD (set c) := by
  unfold apply names
  dsimp only
  split
  · rfl
  split
  · rw [update_apply, apply_ite (Option.getD · (set c))]
    exact if_congr eq_comm rfl rfl
  · rw [update_apply, apply_ite (Option.getD · (set c))]
    exact if_congr eq_comm rfl rfl

theorem foldr_apply (set : String → Bool) (c : String) (entries : List String) :
    entries.foldr (fun entry set => apply set entry) set c =
      (entries.findSome? (names c)).getD (set c) := by
  induction entries with
  | nil => rfl
  | cons entry rest ih =>
    rw [List.foldr_cons, apply_eq, List.findSome?_cons, ih]
    cases names c entry <;> rfl

theorem rebuilt_has (idx : Index) (model c : String) :
    idx.rebuildLocked.has model c = allowed idx.overrides idx.auto model c := by
  unfold Index.has Index.rebuildLocked allowed
  dsimp only
  cases idx.overrides model with
  | none => rfl
  | some list =>
    show list.foldl apply _ c = _
    rw [List.foldl_eq_foldr_reverse, foldr_apply]
    cases idx.auto model <;> rfl

def last (overrides : Overrides) (auto : Auto) : List Index.Op → Overrides × Auto
  | [] => (overrides, auto)
  | .setAuto auto :: ops => last overrides auto ops
  | .setOverrides overrides :: ops => last overrides auto ops

theorem run_rebuilt (ops : List Index.Op) (idx : Index) :
    ops.foldl Index.step idx.rebuildLocked = Index.rebuildLocked
      ⟨idx.caps, (last idx.overrides idx.auto ops).1, (last idx.overrides idx.auto ops).2⟩ := by
  induction ops generalizing idx with
  | nil => rfl
  | cons op ops ih =>
    cases op with
    | setAuto auto => exact ih ⟨idx.caps, idx.overrides, auto⟩
    | setOverrides overrides => exact ih ⟨idx.caps, overrides, idx.auto⟩

/-- The last derived capabilities and the last override decide, and a requirement is met by a known
model that has all of it. -/
theorem capabilities_decided (overrides : Overrides) (ops : List Index.Op) :
    let idx := ops.foldl Index.step (.new overrides)
    let final := last overrides (fun _ => none) ops
    (∀ model c, idx.has model c = allowed final.1 final.2 model c) ∧
      (∀ model, (idx.caps model).isSome = ((final.1 model).isSome || (final.2 model).isSome)) ∧
      ∀ model required, required ≠ [] → (idx.satisfies model required = true ↔
        idx.known model = true ∧ ∀ c ∈ required, idx.has (trimSpace model) c = true) := by
  dsimp only
  rw [Index.new, run_rebuilt]
  refine ⟨rebuilt_has _, fun model => ?_, fun model required hne => ?_⟩
  · unfold Index.rebuildLocked
    dsimp only
    split
    · next h => rw [h]; rfl
    · next h => rw [h]; rfl
  · unfold Index.satisfies Index.known Index.has
    rw [List.isEmpty_eq_false_iff.mpr hne, if_neg Bool.false_ne_true]
    cases Index.caps _ (trimSpace model) with
    | none => simp
    | some set => simp

end CalvoProxy.Capabilities
