import Rtt.ListShares
import Rtt.Machine
import Rtt.MachineWord

/-!
The request template of fixed capacity: a body with slots that are patched in place,
and the runs of calls that set the body, register slots and patch them.
-/

namespace Rtt.Request

open Rtt.ListShares
open Rtt.Machine
open Rtt.MachineWord

def maxPatchSlots : Nat := 8

def maxBodySize : Nat := 4096

/-- A part of the body that may be written over. -/
structure PatchSlot where
  offset : Nat
  length : Nat
  deriving DecidableEq, Repr

/-- The body is the front of a buffer that keeps its size. -/
structure RequestTemplate where
  body : List UInt8
  bodyLen : Nat
  patches : List PatchSlot
  body_length : body.length = maxBodySize
  bodyLen_le : bodyLen ≤ maxBodySize
  patches_le : patches.length ≤ maxPatchSlots

namespace RequestTemplate

def new : RequestTemplate where
  body := List.replicate maxBodySize 0
  bodyLen := 0
  patches := []
  body_length := List.length_replicate
  bodyLen_le := Nat.zero_le _
  patches_le := Nat.zero_le _

/-- Copy a value to the range of the buffer.  A range that is not one of the buffer, or
not of the length of the value, panics. -/
def copyFromSlice (self : RequestTemplate) (start stop : Nat) (value : List UInt8) :
    Option RequestTemplate :=
  if h : start ≤ stop ∧ stop ≤ maxBodySize ∧ value.length = stop - start then
    some
      { self with
        body := overwrite self.body start value
        body_length := by
          have hfit : start + value.length ≤ self.body.length := by
            rw [self.body_length]
            omega
          rw [length_overwrite hfit, self.body_length] }
  else none

/-- `set_body`. A body that does not fit panics, which is `none` here. -/
def setBody (self : RequestTemplate) (body : List UInt8) : Option RequestTemplate :=
  if h : body.length ≤ maxBodySize then
    (self.copyFromSlice 0 body.length body).map fun template =>
      { template with bodyLen := body.length, bodyLen_le := h }
  else none

/-- The sum of offset and length wraps around, as in a release build. -/
def registerPatch (self : RequestTemplate) (offset length : Nat) :
    Option (RequestTemplate × Nat) :=
  if h : wrappingAdd offset length ≤ self.bodyLen ∧ self.patches.length < maxPatchSlots then
    let idx := self.patches.length
    some
      ({ self with
          patches := self.patches ++ [{ offset, length }]
          patches_le := by
            rw [List.length_append]
            exact h.2 },
        idx)
  else none

/-- `patch`. A slot that is not there and a value of another length panic. -/
def patch (self : RequestTemplate) (slot : Nat) (value : List UInt8) : Option RequestTemplate :=
  match self.patches[slot]? with
  | none => none
  | some p =>
      if value.length = p.length then
        self.copyFromSlice p.offset (wrappingAdd p.offset p.length) value
      else none

def bodyBytes (self : RequestTemplate) : List UInt8 := self.body.take self.bodyLen

end RequestTemplate

inductive Call where
  | setBody (body : List UInt8)
  | registerPatch (offset length : Nat)
  | patch (slot : Nat) (value : List UInt8)
  deriving DecidableEq, Repr

/-- What a call leaves, unless it panics. -/
def call (template : RequestTemplate) : Call → Option RequestTemplate
  | .setBody body => template.setBody body
  | .registerPatch offset length => (template.registerPatch offset length).map Prod.fst
  | .patch slot value => template.patch slot value

/-- A call that panics does so before it changes anything.  The output tells whether
the call returned. -/
def step (template : RequestTemplate) (input : Call) : RequestTemplate × Bool :=
  match call template input with
  | some next => (next, true)
  | none => (template, false)

namespace PatchSlot

def Inside (slot : PatchSlot) (len : Nat) : Prop := slot.offset + slot.length ≤ len

instance (slot : PatchSlot) (len : Nat) : Decidable (slot.Inside len) :=
  inferInstanceAs (Decidable (_ ≤ _))

/-- The two slots share no byte. -/
def Disjoint (slot other : PatchSlot) : Prop :=
  slot.offset + slot.length ≤ other.offset ∨ other.offset + other.length ≤ slot.offset

end PatchSlot

namespace RequestTemplate

/-- Every slot lies inside the body. -/
def SlotsInside (template : RequestTemplate) : Prop :=
  ∀ slot ∈ template.patches, slot.Inside template.bodyLen

/-- The bytes of the body at a slot. -/
def slotBytes (template : RequestTemplate) (slot : PatchSlot) : List UInt8 :=
  slice template.bodyBytes slot.offset slot.length

end RequestTemplate

/-- After the call the slots lie inside the body, and a value patched into a slot is
there while the slots disjoint from it have their bytes. -/
structure Sound (before : RequestTemplate) (input : Call) : Prop where
  inside : (step before input).1.SlotsInside
  patched : ∀ slot value after, input = .patch slot value →
    before.patch slot value = some after →
      ∃ p, before.patches[slot]? = some p ∧ after.slotBytes p = value ∧
        ∀ q ∈ before.patches, q.Disjoint p → after.slotBytes q = before.slotBytes q

/-- A body set holds every slot registered before, and no slot registered reaches the end
of the address space. -/
def Fitting (before : RequestTemplate) : Call → Prop
  | .setBody body =>
      body.length ≤ maxBodySize → ∀ slot ∈ before.patches, slot.Inside body.length
  | .registerPatch offset length =>
      wrappingAdd offset length ≤ before.bodyLen ∧ before.patches.length < maxPatchSlots →
        offset + length < wordSize
  | .patch _ _ => True

section

variable {before after : RequestTemplate}

theorem copyFromSlice_eq_some {start stop : Nat} {value : List UInt8}
    (h : before.copyFromSlice start stop value = some after) :
    start + value.length ≤ before.body.length ∧ after.body = overwrite before.body start value ∧
      after.bodyLen = before.bodyLen ∧ after.patches = before.patches := by
  unfold RequestTemplate.copyFromSlice at h
  split at h
  · rename_i hrange
    obtain rfl := Option.some.inj h
    refine ⟨?_, rfl, rfl, rfl⟩
    rw [before.body_length]
    omega
  · exact absurd h (by simp)

theorem patch_eq_some {slot : Nat} {value : List UInt8}
    (h : before.patch slot value = some after) :
    ∃ p, before.patches[slot]? = some p ∧ value.length = p.length ∧
      p.offset + value.length ≤ before.body.length ∧
      after.body = overwrite before.body p.offset value ∧
      after.bodyLen = before.bodyLen ∧ after.patches = before.patches := by
  unfold RequestTemplate.patch at h
  split at h
  · exact absurd h (by simp)
  · rename_i p hslot
    split at h
    · rename_i hlength
      exact ⟨p, hslot, hlength, copyFromSlice_eq_some h⟩
    · exact absurd h (by simp)

theorem step_setBody (before : RequestTemplate) {body : List UInt8}
    (hbody : body.length ≤ maxBodySize) :
    (step before (.setBody body)).1.bodyLen = body.length ∧
      (step before (.setBody body)).1.patches = before.patches := by
  simp [step, call, RequestTemplate.setBody, RequestTemplate.copyFromSlice, hbody]

theorem step_setBody_panic (before : RequestTemplate) {body : List UInt8}
    (hbody : ¬ body.length ≤ maxBodySize) : step before (.setBody body) = (before, false) := by
  simp [step, call, RequestTemplate.setBody, hbody]

theorem step_registerPatch (before : RequestTemplate) {offset length : Nat}
    (hroom : wrappingAdd offset length ≤ before.bodyLen ∧
      before.patches.length < maxPatchSlots) :
    (step before (.registerPatch offset length)).1.bodyLen = before.bodyLen ∧
      (step before (.registerPatch offset length)).1.patches =
        before.patches ++ [PatchSlot.mk offset length] := by
  simp [step, call, RequestTemplate.registerPatch, hroom]

theorem step_registerPatch_panic (before : RequestTemplate) {offset length : Nat}
    (hroom : ¬ (wrappingAdd offset length ≤ before.bodyLen ∧
      before.patches.length < maxPatchSlots)) :
    step before (.registerPatch offset length) = (before, false) := by
  simp only [step, call, RequestTemplate.registerPatch, dif_neg hroom, Option.map_none]

theorem step_patch (before : RequestTemplate) (slot : Nat) (value : List UInt8) :
    (step before (.patch slot value)).1.bodyLen = before.bodyLen ∧
      (step before (.patch slot value)).1.patches = before.patches := by
  simp only [step, call]
  split
  · rename_i after hafter
    obtain ⟨_, _, _, _, _, hlen, hpatches⟩ := patch_eq_some hafter
    exact ⟨hlen, hpatches⟩
  · exact ⟨rfl, rfl⟩

theorem Sound.of_inside {input : Call} (hinside : (step before input).1.SlotsInside)
    (hother : ∀ slot value, input ≠ .patch slot value) : Sound before input :=
  ⟨hinside, fun slot value _ hcall => absurd hcall (hother slot value)⟩

theorem sound_setBody_iff (h : before.SlotsInside) (body : List UInt8) :
    Sound before (.setBody body) ↔ Fitting before (.setBody body) := by
  by_cases hbody : body.length ≤ maxBodySize
  · obtain ⟨hlen, hpatches⟩ := step_setBody before hbody
    have hinside : (step before (.setBody body)).1.SlotsInside ↔
        ∀ slot ∈ before.patches, slot.Inside body.length := by
      rw [RequestTemplate.SlotsInside, hlen, hpatches]
    constructor
    · exact fun hsound _ => hinside.mp hsound.inside
    · exact fun hfits => Sound.of_inside (hinside.mpr (hfits hbody)) (by simp)
  · refine iff_of_true (Sound.of_inside ?_ (by simp)) (fun hfits => absurd hfits hbody)
    rw [step_setBody_panic before hbody]
    exact h

theorem sound_registerPatch_iff (h : before.SlotsInside) (offset length : Nat) :
    Sound before (.registerPatch offset length) ↔
      Fitting before (.registerPatch offset length) := by
  by_cases hroom : wrappingAdd offset length ≤ before.bodyLen ∧
      before.patches.length < maxPatchSlots
  · obtain ⟨hlen, hpatches⟩ := step_registerPatch before hroom
    have hword : before.bodyLen < wordSize :=
      before.bodyLen_le.trans_lt (by decide)
    have hinside : (step before (.registerPatch offset length)).1.SlotsInside ↔
        offset + length < wordSize := by
      rw [RequestTemplate.SlotsInside, hlen, hpatches]
      constructor
      · intro hall
        have hnew : offset + length ≤ before.bodyLen :=
          hall (PatchSlot.mk offset length) (by simp)
        exact hnew.trans_lt hword
      · intro hfits
        refine List.forall_mem_append.mpr ⟨h, List.forall_mem_singleton.mpr ?_⟩
        have hsum := hroom.1
        rwa [wrappingAdd_eq hfits] at hsum
    constructor
    · exact fun hsound _ => hinside.mp hsound.inside
    · exact fun hfits => Sound.of_inside (hinside.mpr (hfits hroom)) (by simp)
  · refine iff_of_true (Sound.of_inside ?_ (by simp)) (fun hfits => absurd hfits hroom)
    rw [step_registerPatch_panic before hroom]
    exact h

theorem sound_patch (h : before.SlotsInside) (slot : Nat) (value : List UInt8) :
    Sound before (.patch slot value) := by
  obtain ⟨hlen, hpatches⟩ := step_patch before slot value
  constructor
  · rw [RequestTemplate.SlotsInside, hlen, hpatches]
    exact h
  · rintro _ _ after ⟨⟩ hafter
    obtain ⟨p, hslot, hlength, hfit, hbody, hbodyLen, -⟩ := patch_eq_some hafter
    have hbytes : ∀ q ∈ before.patches,
        after.slotBytes q = slice (overwrite before.body p.offset value) q.offset q.length := by
      intro q hq
      rw [RequestTemplate.slotBytes, RequestTemplate.bodyBytes, hbody, hbodyLen,
        slice_take (h q hq)]
    refine ⟨p, hslot, ?_, ?_⟩
    · rw [hbytes p (List.mem_of_getElem? hslot), ← hlength]
      exact slice_overwrite hfit
    · intro q hq hdisjoint
      rw [hbytes q hq, RequestTemplate.slotBytes, RequestTemplate.bodyBytes, slice_take (h q hq)]
      refine slice_overwrite_of_disjoint hfit ?_
      rw [hlength]
      exact hdisjoint

theorem sound_iff_fitting (h : before.SlotsInside) (input : Call) :
    Sound before input ↔ Fitting before input := by
  cases input with
  | setBody body => exact sound_setBody_iff h body
  | registerPatch offset length => exact sound_registerPatch_iff h offset length
  | patch slot value => exact iff_of_true (sound_patch h slot value) trivial

end

theorem slotsInside_new : RequestTemplate.new.SlotsInside := by
  intro slot hslot
  exact absurd hslot List.not_mem_nil

/-- All calls on a template keep its slots inside the body and patch what they should,
just in case every body set holds the slots registered before it, and no slot is
registered with an end that wraps around. -/
theorem template_sound_iff (calls : List Call) :
    Along step Sound .new calls ↔ Along step Fitting .new calls := by
  refine along_congr_of_kept (J := RequestTemplate.SlotsInside) ?_ ?_ slotsInside_new
  · exact fun before input h => sound_iff_fitting h input
  · exact fun before input _ hsound => hsound.inside

/-- A slot of four bytes is left outside by a shorter body. -/
theorem shorter_body_strands_slot :
    ¬ ∀ calls, Along step Sound .new calls := by
  intro h
  obtain ⟨-, -, hshorter, -⟩ :=
    h [.setBody [88, 88, 88, 88], .registerPatch 0 4, .setBody [123, 125]]
  exact absurd (hshorter.inside ⟨0, 4⟩ (by decide)) (by decide)

end Rtt.Request
