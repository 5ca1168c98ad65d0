import OpenFlight.Core.DcsBios.Protocol
import OpenFlight.Lib.Run

/-!
# No Missed Cockpit Change

A control whose value is another one than at the last `clear_changes` or `reset`
is among the changed controls.

What is recorded are words, and what is read are masked words and strings of any
place and length. The invariant between the two is `Tracks`: every address that
holds another byte than at the mark has its word recorded. A byte may have
changed back since, so the converse fails, and nothing is said about it.

A value that is read depends only on the bytes of its output. A string that ends
with the address space has an end that is cut to a word, one below the last
address. The last word is still below that, so the scan reaches it.

## Main definitions

* `Call`, `stateAfter`: The calls on a state, and the state after them.

## Theorems

* `outputChanged_of_readInteger_ne`, `outputChanged_of_readString_ne`: A value
  changes only with a word of its output.
* `changed_control_listed`: A control that changed is listed.
-/

namespace OpenFlight.DcsBios

open DcsBiosState

inductive Call
  | applyUpdate (update : DcsBiosUpdate)
  | applyUpdates (updates : List DcsBiosUpdate)
  | clearChanges
  | reset
deriving DecidableEq

def step (s : DcsBiosState) : Call → DcsBiosState
  | .applyUpdate update => s.applyUpdate update
  | .applyUpdates updates => s.applyUpdates updates
  | .clearChanges => s.clearChanges
  | .reset => s.reset

/-- Changes are counted from this call on. -/
def Call.Clears (c : Call) : Prop :=
  c = .clearChanges ∨ c = .reset

instance (c : Call) : Decidable c.Clears :=
  inferInstanceAs (Decidable (_ ∨ _))

/-- The state after calls on a new one. -/
def stateAfter (calls : List Call) : DcsBiosState :=
  run step DcsBiosState.new calls

section

/-- Every address that holds another byte than in the marked state has its word
    among the changed ones. -/
def Tracks (marked s : DcsBiosState) : Prop :=
  ∀ addr, s.memory addr ≠ marked.memory addr → wordAddress addr ∈ s.changedAddresses

theorem tracks_refl (s : DcsBiosState) : Tracks s s :=
  fun _ h => absurd rfl h

variable (marked : DcsBiosState) (s : DcsBiosState)

section

variable (h : Tracks marked s)

include h

theorem tracks_writeByte (at' : Nat) (byte : UInt8) : Tracks marked (s.writeByte at' byte) := by
  intro addr hdiffers
  rw [writeByte] at hdiffers ⊢
  split
  case isTrue hnew =>
      rw [if_pos hnew] at hdiffers
      by_cases haddr : addr = at'
      · rw [haddr]
        exact Finset.mem_insert_self _ _
      · simp only [Function.update_of_ne haddr] at hdiffers
        exact Finset.mem_insert_of_mem (h addr hdiffers)
  case isFalse hsame =>
      rw [if_neg hsame] at hdiffers
      exact h addr hdiffers

theorem tracks_writeBytes (start : Nat) (data : List UInt8) :
    Tracks marked (s.writeBytes start data) := by
  induction data generalizing s start with
  | nil => exact h
  | cons byte data ih => exact ih _ (tracks_writeByte marked s h start byte) _

theorem tracks_applyUpdate (update : DcsBiosUpdate) : Tracks marked (s.applyUpdate update) := by
  rw [applyUpdate]
  split
  · exact h
  · exact tracks_writeBytes marked s h _ _

theorem tracks_applyUpdates (updates : List DcsBiosUpdate) :
    Tracks marked (s.applyUpdates updates) :=
  run_invariant applyUpdate (Tracks marked)
    (fun s update hs => tracks_applyUpdate marked s hs update) s updates h

/-- A call that does not clear the changes keeps the invariant. -/
theorem tracks_step (c : Call) (hc : ¬ c.Clears) : Tracks marked (step s c) := by
  cases c with
  | applyUpdate update => exact tracks_applyUpdate marked s h update
  | applyUpdates updates => exact tracks_applyUpdates marked s h updates
  | clearChanges => exact absurd (.inl rfl) hc
  | reset => exact absurd (.inr rfl) hc

end

/-- The invariant holds along every run from a marked state. -/
theorem tracks_run (calls : List Call) (hcalls : ∀ c ∈ calls, ¬ c.Clears) :
    Tracks marked (run step marked calls) :=
  run_invariant_of_mem step (Tracks marked) calls
    (fun c hc s hs => tracks_step marked s hs c (hcalls c hc)) marked (tracks_refl marked)

end

theorem toNat_wordAddress (addr : Nat) (h : addr < addressSpaceSize) :
    (wordAddress addr).toNat = addr / 2 * 2 := by
  rw [addressSpaceSize] at h
  rw [wordAddress, UInt16.toNat_ofNat']
  exact Nat.mod_eq_of_lt (by omega)

theorem toNat_saturatingAdd (a b : UInt16) :
    (saturatingAdd a b).toNat = min (a.toNat + b.toNat) 65535 := by
  rw [saturatingAdd, UInt16.toNat_ofNat']
  exact Nat.mod_eq_of_lt (by omega)

/-- The scan finds a changed word between its start and its end. -/
theorem scanWords_of_mem (changed : Finset UInt16) (stop word : UInt16) (hmem : word ∈ changed)
    (hstop : word < stop) (fuel : Nat) (addr : UInt16) (heven : addr.toNat % 2 = word.toNat % 2)
    (hle : addr.toNat ≤ word.toNat) (hfuel : word.toNat < addr.toNat + fuel) :
    scanWords changed stop fuel addr = true := by
  induction fuel generalizing addr with
  | zero => omega
  | succ fuel ih =>
      have hbelow : addr < stop := by
        rw [UInt16.lt_iff_toNat_lt] at hstop ⊢
        omega
      rw [scanWords, if_pos hbelow]
      split
      · rfl
      rename_i hother
      have hne : addr.toNat ≠ word.toNat := by
        intro hsame
        rw [UInt16.toNat_inj.mp hsame] at hother
        exact hother hmem
      -- The next word is not past the changed one, so the sum is exact.
      have hlt := word.toNat_lt
      have htwo : (2 : UInt16).toNat = 2 := rfl
      have hnext : (saturatingAdd addr 2).toNat = addr.toNat + 2 := by
        rw [toNat_saturatingAdd, htwo]
        omega
      refine ih _ ?_ ?_ ?_
      · rw [hnext]
        omega
      · rw [hnext]
        omega
      · rw [hnext]
        omega

section

variable (marked s : DcsBiosState) (htracks : Tracks marked s)
include htracks

/-- A word that is not among the changed ones reads as in the marked state. -/
theorem readU16_of_notMem (address : UInt16) (h : address ∉ s.changedAddresses) :
    s.readU16 address = marked.readU16 address := by
  unfold readU16
  simp only []
  split
  · rfl
  · rename_i hbounds
    rw [not_or, not_lt, not_not] at hbounds
    -- Both bytes belong to the word at the address.
    have hbyte (addr : Nat) (hword : addr / 2 * 2 = address.toNat)
        (hspace : addr < addressSpaceSize) : s.memory addr = marked.memory addr := by
      by_contra hdiffers
      have hmem := htracks addr hdiffers
      have hsame : wordAddress addr = address := by
        refine UInt16.toNat_inj.mp ?_
        rw [toNat_wordAddress addr hspace, hword]
      rw [hsame] at hmem
      exact h hmem
    rw [hbyte address.toNat (by omega) (by omega), hbyte (address.toNat + 1) (by omega) (by omega)]

theorem outputChanged_of_readInteger_ne (module : DcsBiosModule) (id : String)
    (h : s.readInteger module id ≠ marked.readInteger module id) :
    ∃ control output, module.getControl id = some control ∧ output ∈ control.outputs ∧
      s.outputChanged output = true := by
  unfold readInteger at h
  cases houtput : module.integerOutput id with
  | none =>
      rw [houtput] at h
      exact absurd rfl h
  | some a =>
      simp only [houtput] at h
      have hmem : a.address ∈ s.changedAddresses := by
        by_contra hnot
        rw [readU16_of_notMem marked s htracks a.address hnot] at h
        exact h rfl
      rw [DcsBiosModule.integerOutput, Option.bind_eq_some_iff] at houtput
      rcases houtput with ⟨control, hcontrol, hfind⟩
      rcases List.exists_of_findSome?_eq_some hfind with ⟨output, houtput, ha⟩
      refine ⟨control, output, hcontrol, houtput, ?_⟩
      cases output with
      | integer a' =>
          rw [OutputType.integer?, Option.some.injEq] at ha
          rw [outputChanged, ha]
          exact decide_eq_true hmem
      | string address maxLength => exact absurd ha.symm (Option.some_ne_none a)

/-- A string in the address space that reads differently has a changed word in
    the range of its scan. -/
theorem outputChanged_of_bytes_ne (address maxLength : UInt16)
    (hspace : address.toNat + maxLength.toNat ≤ addressSpaceSize)
    (h : s.bytes address.toNat maxLength.toNat ≠ marked.bytes address.toNat maxLength.toNat) :
    s.outputChanged (.string address maxLength) = true := by
  have hbyte : ∃ addr ∈ List.range' address.toNat maxLength.toNat,
      s.memory addr ≠ marked.memory addr := by
    by_contra hnone
    push Not at hnone
    exact h (List.map_congr_left hnone)
  rcases hbyte with ⟨addr, hrange, hdiffers⟩
  rw [List.mem_range'_1] at hrange
  rw [addressSpaceSize] at hspace
  have hword := toNat_wordAddress addr (by rw [addressSpaceSize]; omega)
  have hstart := toNat_wordAddress address.toNat (by rw [addressSpaceSize]; omega)
  rw [outputChanged]
  refine scanWords_of_mem _ _ (wordAddress addr) (htracks addr hdiffers) ?_ _ _ ?_ ?_ ?_
  · rw [UInt16.lt_iff_toNat_lt, toNat_saturatingAdd, hword]
    omega
  · rw [hstart, hword]
    omega
  · rw [hstart, hword]
    omega
  · rw [hstart, hword, addressSpaceSize]
    omega

theorem outputChanged_of_readString_ne (module : DcsBiosModule) (id : String)
    (h : s.readString module id ≠ marked.readString module id) :
    ∃ control output, module.getControl id = some control ∧ output ∈ control.outputs ∧
      s.outputChanged output = true := by
  unfold readString at h
  cases houtput : module.stringOutput id with
  | none =>
      rw [houtput] at h
      exact absurd rfl h
  | some place =>
      rcases place with ⟨address, maxLength⟩
      simp only [houtput] at h
      by_cases hspace : addressSpaceSize < address.toNat + maxLength.toNat
      · rw [if_pos hspace, if_pos hspace] at h
        exact absurd rfl h
      rw [if_neg hspace, if_neg hspace] at h
      have hbytes : s.bytes address.toNat maxLength.toNat ≠
          marked.bytes address.toNat maxLength.toNat := by
        intro hsame
        rw [hsame] at h
        exact h rfl
      have hchanged := outputChanged_of_bytes_ne marked s htracks address maxLength
        (Nat.le_of_not_lt hspace) hbytes
      rw [DcsBiosModule.stringOutput, Option.bind_eq_some_iff] at houtput
      rcases houtput with ⟨control, hcontrol, hfind⟩
      rcases List.exists_of_findSome?_eq_some hfind with ⟨output, houtput, hplace⟩
      refine ⟨control, output, hcontrol, houtput, ?_⟩
      cases output with
      | integer a => exact absurd hplace.symm (Option.some_ne_none _)
      | string address' maxLength' =>
          rw [OutputType.string?, Option.some.injEq, Prod.mk.injEq] at hplace
          rw [hplace.1, hplace.2]
          exact hchanged

end

/-- A control with a changed output is listed, whatever the order of going through the controls. -/
theorem mem_changedControls (s : DcsBiosState) (order : Iteration String DcsBiosControl)
    (module : DcsBiosModule) (id : String) (control : DcsBiosControl) (output : OutputType)
    (hcontrol : module.getControl id = some control) (houtput : output ∈ control.outputs)
    (hchanged : s.outputChanged output = true) : id ∈ s.changedControls order module := by
  have hentry : (⟨id, control⟩ : Sigma fun _ : String => DcsBiosControl) ∈
      order.entries module.controls :=
    (order.mem_entries module.controls id control).mpr hcontrol
  refine List.mem_map.mpr ⟨⟨id, control⟩, List.mem_filter.mpr ⟨hentry, ?_⟩, rfl⟩
  exact List.any_eq_true.mpr ⟨output, houtput, hchanged⟩

/-- A control is listed if its value is another one than it was right after the
    last call that cleared the changes, or at any point since. -/
theorem changed_control_listed (order : Iteration String DcsBiosControl) (module : DcsBiosModule)
    (before after : List Call) (hafter : ∀ c ∈ after, ¬ c.Clears) (id : String)
    (hchanged :
      (stateAfter (before ++ after)).readInteger module id ≠
          (stateAfter before).readInteger module id ∨
        (stateAfter (before ++ after)).readString module id ≠
          (stateAfter before).readString module id) :
    id ∈ (stateAfter (before ++ after)).changedControls order module := by
  have htracks : Tracks (stateAfter before) (stateAfter (before ++ after)) := by
    rw [stateAfter, stateAfter, run_append]
    exact tracks_run _ after hafter
  rcases hchanged with hinteger | hstring
  · rcases outputChanged_of_readInteger_ne _ _ htracks module id hinteger with
      ⟨control, output, hcontrol, houtput, hword⟩
    exact mem_changedControls _ order module id control output hcontrol houtput hword
  · rcases outputChanged_of_readString_ne _ _ htracks module id hstring with
      ⟨control, output, hcontrol, houtput, hword⟩
    exact mem_changedControls _ order module id control output hcontrol houtput hword

/-- A string of one byte, at the last address. -/
def lastByteModule : DcsBiosModule :=
  { controls := Finmap.singleton "TAIL" ⟨[.string 0xFFFF 1]⟩ }

theorem changed_control_listed_last :
    (stateAfter [.reset]).readString lastByteModule "TAIL" = some "" ∧
    (stateAfter [.reset, .applyUpdate ⟨0xFFFE, [0, 0x41]⟩]).readString lastByteModule "TAIL" =
      some "A" ∧
    "TAIL" ∈ (stateAfter [.reset, .applyUpdate ⟨0xFFFE, [0, 0x41]⟩]).changedControls default
      lastByteModule := by
  refine ⟨by decide, by decide, ?_⟩
  exact changed_control_listed default lastByteModule [.reset] [.applyUpdate ⟨0xFFFE, [0, 0x41]⟩]
    (by decide) "TAIL" (.inr (by decide))

end OpenFlight.DcsBios
