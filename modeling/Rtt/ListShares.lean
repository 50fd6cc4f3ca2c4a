import Mathlib.Data.Int.CardIntervalMod

namespace Rtt.ListShares

variable {α : Type*}

section Batches

/-- A batch holds something and fits the width. -/
def Fits (width : Nat) (batch : List α) : Prop := batch ≠ [] ∧ batch.length ≤ width

theorem fits_push {width : Nat} {done : Array (List α)} {batch : Array α}
    (hdone : ∀ chunk ∈ done.toList, Fits width chunk) (hsome : 0 < batch.size)
    (hsize : batch.size ≤ width) :
    ∀ chunk ∈ (done.push batch.toList).toList, Fits width chunk := by
  intro chunk hchunk
  rw [Array.toList_push, List.mem_append, List.mem_singleton] at hchunk
  rcases hchunk with hchunk | rfl
  · exact hdone chunk hchunk
  · refine ⟨List.ne_nil_of_length_pos ?_, ?_⟩
    · rwa [Array.length_toList]
    · rwa [Array.length_toList]

theorem toChunks_go_spec {width : Nat} (hwidth : 0 < width) (xs : List α) (batch : Array α)
    (done : Array (List α)) (hsome : 0 < batch.size) (hsize : batch.size ≤ width)
    (hdone : ∀ chunk ∈ done.toList, Fits width chunk) :
    (List.toChunks.go width xs batch done).flatten =
        done.toList.flatten ++ batch.toList ++ xs ∧
      ∀ chunk ∈ List.toChunks.go width xs batch done, Fits width chunk := by
  induction xs generalizing batch done with
  | nil =>
      refine ⟨by simp [List.toChunks.go], ?_⟩
      simp only [List.toChunks.go]
      exact fits_push hdone hsome hsize
  | cons x xs ih =>
      simp only [List.toChunks.go]
      split
      · obtain ⟨hflat, hfits⟩ := ih #[x] (done.push batch.toList) (by simp) hwidth
          (fits_push hdone hsome hsize)
        refine ⟨?_, hfits⟩
        refine hflat.trans ?_
        simp
      · rename_i hroom
        have hne : batch.size ≠ width := by simpa using hroom
        have hmore : (batch.push x).size ≤ width := by
          rw [Array.size_push]
          omega
        obtain ⟨hflat, hfits⟩ := ih (batch.push x) done (by simp) hmore hdone
        refine ⟨?_, hfits⟩
        rw [hflat]
        simp

theorem toChunks_spec {width : Nat} (hwidth : 0 < width) (xs : List α) :
    (xs.toChunks width).flatten = xs ∧ ∀ chunk ∈ xs.toChunks width, Fits width chunk := by
  cases xs with
  | nil => simp [List.toChunks]
  | cons x xs =>
      obtain ⟨width, rfl⟩ := Nat.exists_eq_add_one.mpr hwidth
      have hgo := toChunks_go_spec hwidth xs #[x] #[] (by simp) (by simp) (by simp)
      simpa [List.toChunks] using hgo

end Batches

section Shares

/-- The elements at the places congruent to `share` when `xs` is dealt to `count`
shares in turn. -/
def dealt (count share : Nat) (xs : List α) : List α :=
  (xs.zipIdx.filter fun entry => entry.2 % count = share).map Prod.fst

theorem dealt_concat (count share : Nat) (xs : List α) (x : α) :
    dealt count share (xs ++ [x]) =
      if xs.length % count = share then dealt count share xs ++ [x] else dealt count share xs := by
  simp only [dealt, List.zipIdx_append, List.filter_append, List.map_append]
  split <;> simp [*]

theorem mem_dealt_iff {count share : Nat} {xs : List α} {x : α} :
    x ∈ dealt count share xs ↔ ∃ index : Nat, xs[index]? = some x ∧ index % count = share := by
  simp only [dealt, List.mem_map, List.mem_filter, decide_eq_true_eq, Prod.exists,
    List.mem_zipIdx_iff_getElem?]
  constructor
  · rintro ⟨y, index, ⟨hget, hmod⟩, rfl⟩
    exact ⟨index, hget, hmod⟩
  · rintro ⟨index, hget, hmod⟩
    exact ⟨x, index, ⟨hget, hmod⟩, rfl⟩

theorem dealt_sublist (count share : Nat) (xs : List α) : (dealt count share xs).Sublist xs := by
  have hfilter := (List.filter_sublist (l := xs.zipIdx) (p := fun entry =>
    decide (entry.2 % count = share))).map Prod.fst
  rwa [List.zipIdx_map_fst] at hfilter

theorem nodup_dealt {xs : List α} (hnodup : xs.Nodup) (count share : Nat) :
    (dealt count share xs).Nodup :=
  hnodup.sublist (dealt_sublist count share xs)

theorem exists_mem_dealt_iff {count : Nat} (hcount : 0 < count) {xs : List α} {x : α} :
    (∃ share < count, x ∈ dealt count share xs) ↔ x ∈ xs := by
  simp only [mem_dealt_iff]
  rw [List.mem_iff_getElem?]
  constructor
  · rintro ⟨share, -, index, hget, -⟩
    exact ⟨index, hget⟩
  · rintro ⟨index, hget⟩
    exact ⟨index % count, Nat.mod_lt _ hcount, index, hget, rfl⟩

theorem dealt_disjoint {xs : List α} (hnodup : xs.Nodup) {count share share' : Nat} {x : α}
    (h : x ∈ dealt count share xs) (h' : x ∈ dealt count share' xs) : share = share' := by
  obtain ⟨index, hget, rfl⟩ := mem_dealt_iff.mp h
  obtain ⟨index', hget', rfl⟩ := mem_dealt_iff.mp h'
  obtain ⟨hlt, -⟩ := List.getElem?_eq_some_iff.mp hget
  rw [(List.getElem?_inj hlt hnodup).mp (hget.trans hget'.symm)]

theorem dealt_length (count share : Nat) (xs : List α) :
    (dealt count share xs).length = Nat.count (fun index => index % count = share) xs.length := by
  induction xs using List.reverseRecOn with
  | nil => simp [dealt]
  | append_singleton xs x ih =>
      rw [dealt_concat, List.length_append, List.length_singleton, Nat.count_succ, ← ih]
      split <;> simp

theorem dealt_length_le {count share share' : Nat} (hshare : share < count)
    (hshare' : share' < count) (xs : List α) :
    (dealt count share xs).length ≤ (dealt count share' xs).length + 1 := by
  have hmodEq : ∀ {r : Nat}, r < count →
      Nat.count (fun index => index % count = r) xs.length =
        xs.length / count + if r < xs.length % count then 1 else 0 := by
    intro r hr
    have hcount := Nat.count_modEq_card xs.length (show 0 < count by omega) r
    simp only [Nat.ModEq, Nat.mod_eq_of_lt hr] at hcount
    exact hcount
  rw [dealt_length, dealt_length, hmodEq hshare, hmodEq hshare']
  split <;> split <;> omega

end Shares

section Ascending

variable [LinearOrder α]

theorem index_eq_countP {xs : List α} (hascending : xs.Pairwise (· < ·)) {index : Nat} {x : α}
    (hget : xs[index]? = some x) : index = xs.countP (· < x) := by
  induction xs generalizing index with
  | nil => exact absurd hget (by simp)
  | cons y xs ih =>
      obtain ⟨hfirst, hrest⟩ := List.pairwise_cons.mp hascending
      cases index with
      | zero =>
          obtain rfl : y = x := by simpa using hget
          symm
          rw [List.countP_eq_zero]
          intro z hz
          rcases List.mem_cons.mp hz with rfl | hz
          · simp
          · simpa using (hfirst z hz).le
      | succ index =>
          have hget' : xs[index]? = some x := by simpa using hget
          have hless : y < x := hfirst x (List.mem_of_getElem? hget')
          rw [List.countP_cons_of_pos (by simpa using hless), ← ih hrest hget']

theorem mem_dealt_ascending_iff {xs : List α} (hascending : xs.Pairwise (· < ·))
    {count share : Nat} {x : α} :
    x ∈ dealt count share xs ↔ x ∈ xs ∧ xs.countP (· < x) % count = share := by
  rw [mem_dealt_iff]
  constructor
  · rintro ⟨index, hget, hshare⟩
    rw [index_eq_countP hascending hget] at hshare
    exact ⟨List.mem_of_getElem? hget, hshare⟩
  · rintro ⟨hmem, hshare⟩
    obtain ⟨index, hget⟩ := List.mem_iff_getElem?.mp hmem
    refine ⟨index, hget, ?_⟩
    rw [index_eq_countP hascending hget]
    exact hshare

end Ascending

theorem succ_mod_eq_iff {count rank : Nat} (hcount : 0 < count) :
    (rank + 1) % count = rank % count ↔ count = 1 := by
  constructor
  · intro h
    have hdvd : count ∣ rank + 1 - rank := (Nat.modEq_iff_dvd' (Nat.le_succ rank)).mp h.symm
    rw [Nat.add_sub_cancel_left] at hdvd
    exact Nat.dvd_one.mp hdvd
  · rintro rfl
    rw [Nat.mod_one, Nat.mod_one]

section Sorted

variable {β ε : Type*}

/-- The entries of a list sorted by what a check makes of them, each into one list. -/
inductive Sorts (f : α → Except ε β) : List α → List β → List ε → Prop
  | nil : Sorts f [] [] []
  | ok {x : α} {y : β} {xs : List α} {ys : List β} {es : List ε} :
      f x = .ok y → Sorts f xs ys es → Sorts f (x :: xs) (y :: ys) es
  | error {x : α} {e : ε} {xs : List α} {ys : List β} {es : List ε} :
      f x = .error e → Sorts f xs ys es → Sorts f (x :: xs) ys (e :: es)

variable {f : α → Except ε β} {xs : List α} {ys : List β} {es : List ε}

theorem Sorts.length_add (h : Sorts f xs ys es) : ys.length + es.length = xs.length := by
  induction h with
  | nil => rfl
  | ok _ _ ih =>
      rw [List.length_cons, List.length_cons]
      omega
  | error _ _ ih =>
      rw [List.length_cons, List.length_cons]
      omega

theorem sorts_filterMap {accepted : α → Option β} {rejected : α → Option ε}
    (hok : ∀ x y, f x = .ok y → accepted x = some y ∧ rejected x = none)
    (herror : ∀ x e, f x = .error e → accepted x = none ∧ rejected x = some e) (xs : List α) :
    Sorts f xs (xs.filterMap accepted) (xs.filterMap rejected) := by
  induction xs with
  | nil => exact .nil
  | cons x xs ih =>
      rcases hx : f x with e | y
      · obtain ⟨haccepted, hrejected⟩ := herror x e hx
        rw [List.filterMap_cons_none haccepted, List.filterMap_cons_some hrejected]
        exact .error hx ih
      · obtain ⟨haccepted, hrejected⟩ := hok x y hx
        rw [List.filterMap_cons_some haccepted, List.filterMap_cons_none hrejected]
        exact .ok hx ih

end Sorted

section Slices

variable {xs ys value : List α} {offset length : Nat}

def slice (xs : List α) (offset length : Nat) : List α := (xs.drop offset).take length

/-- Write a value over the entries from an offset on. -/
def overwrite (xs : List α) (offset : Nat) (value : List α) : List α :=
  xs.take offset ++ value ++ xs.drop (offset + value.length)

theorem getElem?_slice (xs : List α) (offset length i : Nat) :
    (slice xs offset length)[i]? = if i < length then xs[offset + i]? else none := by
  rw [slice, List.getElem?_take, List.getElem?_drop]

theorem slice_congr (h : ∀ i < length, xs[offset + i]? = ys[offset + i]?) :
    slice xs offset length = slice ys offset length := by
  apply List.ext_getElem?
  intro i
  rw [getElem?_slice, getElem?_slice]
  split
  · rename_i hi
    exact h i hi
  · rfl

theorem length_overwrite (hfit : offset + value.length ≤ xs.length) :
    (overwrite xs offset value).length = xs.length := by
  rw [overwrite, List.length_append, List.length_append, List.length_take, List.length_drop]
  omega

theorem getElem?_overwrite (hfit : offset + value.length ≤ xs.length) (i : Nat) :
    (overwrite xs offset value)[i]? =
      if offset ≤ i ∧ i < offset + value.length then value[i - offset]? else xs[i]? := by
  have htake : (xs.take offset).length = offset := List.length_take_of_le (by omega)
  rw [overwrite, List.append_assoc, List.getElem?_append, htake, List.getElem?_append,
    List.getElem?_drop]
  split
  · rename_i hbefore
    rw [if_neg (by omega), List.getElem?_take_of_lt hbefore]
  · split
    · rw [if_pos (by omega)]
    · rw [if_neg (by omega)]
      congr 1
      omega

theorem slice_overwrite (hfit : offset + value.length ≤ xs.length) :
    slice (overwrite xs offset value) offset value.length = value := by
  apply List.ext_getElem?
  intro i
  rw [getElem?_slice, getElem?_overwrite hfit]
  split
  · rw [if_pos (by omega), Nat.add_sub_cancel_left]
  · rw [List.getElem?_eq_none (by omega)]

theorem slice_overwrite_of_disjoint (hfit : offset + value.length ≤ xs.length) {other size : Nat}
    (hdisjoint : other + size ≤ offset ∨ offset + value.length ≤ other) :
    slice (overwrite xs offset value) other size = slice xs other size := by
  apply slice_congr
  intro i hi
  rw [getElem?_overwrite hfit, if_neg (by omega)]

theorem slice_take {front : Nat} (hinside : offset + length ≤ front) :
    slice (xs.take front) offset length = slice xs offset length := by
  apply slice_congr
  intro i hi
  rw [List.getElem?_take_of_lt (by omega)]

end Slices

end Rtt.ListShares
