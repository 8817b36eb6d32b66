import CalvoProxy.Lib.GoString
import CalvoProxy.Lib.Utf8
import Mathlib.Logic.Function.Basic

/-!
# The stored key

`cmd/keystore.go` writes a new key to a temporary file and renames it. The old key is removed
before, and is lost if the rename fails (`failed_store_keeps_iff`).
-/

namespace CalvoProxy.KeyStore

open Function

abbrev Disk := String → Option (List UInt8)

structure Steps where
  mkdir : Bool
  /-- the name that `CreateTemp` finds -/
  temp : Option String
  write : Bool
  /-- what a write that fails leaves in the file -/
  left : List UInt8
  close : Bool
  remove : Bool
  rename : Bool
  /-- the removal of the temporary file -/
  cleanup : Bool

variable {path tmp : String} {o : Steps} {key : List UInt8} {d : Disk}

/-- `strings.TrimSpace` of what a key file contains. -/
def trimmed (data : List UInt8) : List UInt8 := Utf8.trim GoString.isSpace data

def storedAPIKey (path : String) (d : Disk) : List UInt8 :=
  if path = "" then [] else trimmed ((d path).getD [])

def Steps.discard (o : Steps) (tmp : String) (d : Disk) : Disk :=
  if o.cleanup then update d tmp none else d

/-- `storeAPIKey`, and whether it returned an error. -/
def storeAPIKey (path : String) (o : Steps) (key : List UInt8) (d : Disk) :
    Disk × Bool :=
  if path = "" || !o.mkdir then (d, true)
  else match o.temp with
    | none => (d, true)
    | some tmp =>
      if !o.write then (o.discard tmp (update d tmp (some o.left)), true)
      else
        let d := update d tmp (some (trimmed key ++ [0x0A]))
        if !o.close then (o.discard tmp d, true)
        else
          let d := if o.remove then update d path none else d
          if !o.rename then (o.discard tmp d, true)
          else (update (update d path (d tmp)) tmp none, false)

def Steps.failsToRename (o : Steps) : Bool :=
  o.mkdir && o.temp.isSome && o.write && o.close && o.remove && !o.rename

theorem discard_apply (hname : tmp ≠ path) : o.discard tmp d path = d path := by
  unfold Steps.discard
  split
  · exact update_of_ne hname.symm _ _
  · rfl

theorem file_after_error (hpath : path ≠ "") (hname : o.temp ≠ some path)
    (hfail : (storeAPIKey path o key d).2 = true) :
    (storeAPIKey path o key d).1 path = if o.failsToRename then none else d path := by
  unfold storeAPIKey at hfail ⊢
  cases hmkdir : o.mkdir with
  | false => simp [Steps.failsToRename, hmkdir]
  | true =>
    cases htemp : o.temp with
    | none => simp [Steps.failsToRename, htemp, hpath]
    | some tmp =>
      have hne : tmp ≠ path := fun heq => hname (htemp.trans (congrArg some heq))
      cases hwrite : o.write with
      | false => simp [Steps.failsToRename, hwrite, hpath, discard_apply hne, update_of_ne hne.symm]
      | true =>
        cases hclose : o.close with
        | false => simp [Steps.failsToRename, hclose, hpath, discard_apply hne, update_of_ne hne.symm]
        | true =>
          cases hrename : o.rename with
          | false =>
            cases hremove : o.remove <;>
              simp [Steps.failsToRename, *, discard_apply hne, update_of_ne hne.symm]
          | true => simp [*] at hfail

/-- A failed store keeps the stored key, unless it fails in the rename and there is one. -/
theorem failed_store_keeps_iff (hname : o.temp ≠ some path)
    (hfail : (storeAPIKey path o key d).2 = true) :
    storedAPIKey path (storeAPIKey path o key d).1 = storedAPIKey path d ↔
      (o.failsToRename = true → storedAPIKey path d = []) := by
  by_cases hpath : path = ""
  · simp only [storedAPIKey, hpath, if_true, implies_true]
  rw [storedAPIKey, if_neg hpath, file_after_error hpath hname hfail]
  cases o.failsToRename with
  | true => exact ⟨fun h _ => h.symm, fun h => (h rfl).symm⟩
  | false => exact iff_of_true (if_neg hpath).symm fun h => by cases h

def renameFails : Steps := ⟨true, some ".openrouter-1.tmp", true, [], true, true, false, true⟩

def oldKey : Disk := fun path => if path = "openrouter.key" then some [0x6F, 0x6C, 0x64] else none

def newKey : List UInt8 := [0x6E, 0x65, 0x77]

/-- The rename fails, and the old key is gone. -/
theorem lost_key : (storeAPIKey "openrouter.key" renameFails newKey oldKey).2 = true ∧
    storedAPIKey "openrouter.key" oldKey = [0x6F, 0x6C, 0x64] ∧
    storedAPIKey "openrouter.key" (storeAPIKey "openrouter.key" renameFails newKey oldKey).1 = [] := by
  decide

theorem kept_key : storedAPIKey "openrouter.key"
    (storeAPIKey "openrouter.key" { renameFails with write := false } newKey oldKey).1 =
      [0x6F, 0x6C, 0x64] :=
  ((failed_store_keeps_iff (by decide) (by decide)).mpr (by decide)).trans (by decide)

end CalvoProxy.KeyStore
