import Mathlib

namespace Rtt.KeyIndex

variable {α κ : Type*} [LinearOrder κ]

instance lawfulEqCmpCompare : Std.LawfulEqCmp (compare : κ → κ → Ordering) where
  eq_of_compare h := compare_eq_iff_eq.mp h

/-- Collect a list into a map.  A later entry replaces an earlier one of the
same key. -/
def indexBy (key : α → κ) (xs : List α) : Std.TreeMap κ α :=
  xs.foldl (fun m x => m.insert (key x) x) ∅

/-- The last entry of a list that has the given key. -/
def lastWith (key : α → κ) (k : κ) (xs : List α) : Option α :=
  xs.reverse.find? (fun x => key x = k)

/-- Put an entry in the place of those of the same key, or at the end. -/
def upsert (key : α → κ) (x : α) (xs : List α) : List α :=
  if xs.any (fun y => key y = key x) then xs.map fun y => if key y = key x then x else y
  else xs ++ [x]

variable {key : α → κ} {k : κ} {x : α} {xs : List α}

theorem lastWith_concat (xs : List α) (x : α) :
    lastWith key k (xs ++ [x]) = if key x = k then some x else lastWith key k xs := by
  simp only [lastWith, List.reverse_append, List.reverse_singleton,
    List.singleton_append, List.find?_cons]
  split <;> simp_all

theorem mem_of_lastWith (h : lastWith key k xs = some x) : x ∈ xs ∧ key x = k := by
  have hmem := List.mem_of_find?_eq_some h
  have hkey := List.find?_some h
  exact ⟨by simpa using hmem, by simpa using hkey⟩

theorem lastWith_eq_none_iff : lastWith key k xs = none ↔ ∀ x ∈ xs, key x ≠ k := by
  simp [lastWith]

theorem exists_lastWith_iff :
    (∃ x, lastWith key k xs = some x) ↔ ∃ x ∈ xs, key x = k := by
  constructor
  · rintro ⟨x, hx⟩
    exact ⟨x, (mem_of_lastWith hx).1, (mem_of_lastWith hx).2⟩
  · rintro ⟨x, hx, hk⟩
    cases h : lastWith key k xs with
    | none => exact absurd hk (lastWith_eq_none_iff.mp h x hx)
    | some y => exact ⟨y, rfl⟩

theorem lastWith_eq_some_iff (hnodup : (xs.map key).Nodup) :
    lastWith key k xs = some x ↔ x ∈ xs ∧ key x = k := by
  constructor
  · exact mem_of_lastWith
  · rintro ⟨hmem, hkey⟩
    obtain ⟨y, hy⟩ := exists_lastWith_iff.mpr ⟨x, hmem, hkey⟩
    obtain ⟨hymem, hykey⟩ := mem_of_lastWith hy
    have hxy : y = x :=
      List.inj_on_of_nodup_map hnodup hymem hmem (hykey.trans hkey.symm)
    rw [hy, hxy]

theorem lastWith_map {f : α → α} (hkey : ∀ x, key (f x) = key x) (k : κ) (xs : List α) :
    lastWith key k (xs.map f) = (lastWith key k xs).map f := by
  induction xs using List.reverseRecOn with
  | nil => rfl
  | append_singleton xs x ih =>
      rw [List.map_append, List.map_singleton, lastWith_concat, lastWith_concat, ih, hkey]
      split <;> rfl

omit [LinearOrder κ] in
theorem map_key_map {f : α → α} (hkey : ∀ x, key (f x) = key x) (xs : List α) :
    (xs.map f).map key = xs.map key := by
  rw [List.map_map]
  congr 1
  funext x
  exact hkey x

theorem lastWith_upsert (k : κ) (x : α) (xs : List α) :
    lastWith key k (upsert key x xs) = if key x = k then some x else lastWith key k xs := by
  unfold upsert
  split
  · rename_i hany
    rw [lastWith_map fun y => by split <;> simp_all]
    split
    · rename_i hkey
      have hex : ∃ y ∈ xs, key y = k := by simpa [hkey] using hany
      obtain ⟨y, hy⟩ := exists_lastWith_iff.mpr hex
      rw [hy, Option.map_some, if_pos ((mem_of_lastWith hy).2.trans hkey.symm)]
    · rename_i hkey
      cases hy : lastWith key k xs with
      | none => rfl
      | some y =>
          have hne : key y ≠ key x := by
            rw [(mem_of_lastWith hy).2]
            exact Ne.symm hkey
          rw [Option.map_some, if_neg hne]
  · exact lastWith_concat xs x

theorem mem_of_mem_upsert {y : α} (h : y ∈ upsert key x xs) : y = x ∨ y ∈ xs := by
  unfold upsert at h
  split at h
  · obtain ⟨z, hz, rfl⟩ := List.mem_map.mp h
    split
    · exact Or.inl rfl
    · exact Or.inr hz
  · simpa [or_comm] using h

theorem nodup_map_upsert (x : α) (hnodup : (xs.map key).Nodup) :
    ((upsert key x xs).map key).Nodup := by
  unfold upsert
  split
  · rw [map_key_map fun y => by split <;> simp_all]
    exact hnodup
  · rename_i hany
    simp only [List.any_eq_true, decide_eq_true_eq, not_exists, not_and] at hany
    rw [List.map_append, List.map_singleton, List.nodup_append]
    refine ⟨hnodup, List.nodup_singleton _, ?_⟩
    rintro _ hmem _ hlast rfl
    obtain ⟨y, hy, hkey⟩ := List.mem_map.mp hmem
    exact hany y hy (hkey.trans (List.mem_singleton.mp hlast))

@[simp] theorem indexBy_concat (xs : List α) (x : α) :
    indexBy key (xs ++ [x]) = (indexBy key xs).insert (key x) x := by
  simp [indexBy]

@[simp] theorem getElem?_indexBy (key : α → κ) (xs : List α) (k : κ) :
    (indexBy key xs)[k]? = lastWith key k xs := by
  induction xs using List.reverseRecOn with
  | nil => rfl
  | append_singleton xs x ih =>
      rw [indexBy_concat, lastWith_concat, Std.TreeMap.getElem?_insert, ih]
      simp only [compare_eq_iff_eq]

theorem mem_toList_indexBy :
    (k, x) ∈ (indexBy key xs).toList ↔ lastWith key k xs = some x := by
  rw [Std.TreeMap.mem_toList_iff_getElem?_eq_some, getElem?_indexBy]

theorem isEmpty_indexBy (key : α → κ) (xs : List α) :
    (indexBy key xs).isEmpty = xs.isEmpty := by
  induction xs using List.reverseRecOn with
  | nil => rfl
  | append_singleton xs x ih => simp

theorem toList_ascending {β : Type*} (m : Std.TreeMap κ β) :
    m.toList.Pairwise (fun a b => a.1 < b.1) :=
  Std.TreeMap.ordered_keys_toList.imp fun h => compare_lt_iff_lt.mp h

theorem indexBy_toList_ascending (key : α → κ) (xs : List α) :
    (indexBy key xs).toList.Pairwise (fun a b => a.1 < b.1) :=
  toList_ascending _

theorem lastWith_comp {ν : Type*} [LinearOrder ν] {value : κ → ν}
    (h : ∀ x ∈ xs, value (key x) = value k → key x = k) :
    lastWith (fun x => value (key x)) (value k) xs = lastWith key k xs := by
  induction xs using List.reverseRecOn with
  | nil => rfl
  | append_singleton xs x ih =>
      have hsame : value (key x) = value k ↔ key x = k :=
        ⟨h x (by simp), congrArg value⟩
      rw [lastWith_concat, lastWith_concat, ih fun y hy => h y (by simp [hy])]
      simp only [hsame]

theorem lastWith_perm {ys : List α} (hperm : xs.Perm ys) (hnodup : (xs.map key).Nodup) (k : κ) :
    lastWith key k xs = lastWith key k ys := by
  have hnodup' : (ys.map key).Nodup := (hperm.map key).nodup_iff.mp hnodup
  apply Option.ext
  intro x
  rw [lastWith_eq_some_iff hnodup, lastWith_eq_some_iff hnodup', hperm.mem_iff]

theorem toList_indexBy_congr {ys : List α} (h : ∀ k, lastWith key k xs = lastWith key k ys) :
    (indexBy key xs).toList = (indexBy key ys).toList := by
  apply Std.TreeMap.equiv_iff_toList_eq.mp
  apply Std.TreeMap.Equiv.of_forall_constGet?_eq
  intro k
  rw [getElem?_indexBy, getElem?_indexBy, h k]

theorem filterMap_toList_ascending {β : Type*} {m : Std.TreeMap κ β} {f : κ × β → Option κ}
    (hkey : ∀ entry ∈ m.toList, ∀ k, f entry = some k → k = entry.1) :
    (m.toList.filterMap f).Pairwise (· < ·) := by
  rw [List.pairwise_filterMap]
  apply (toList_ascending m).imp_of_mem
  intro a b ha hb hlt k hk l hl
  rw [hkey a ha k hk, hkey b hb l hl]
  exact hlt

section

variable {β : Type*} {m : Std.TreeMap κ β} {y : β}

theorem toList_eq_nil_iff : m.toList = [] ↔ ∀ k : κ, m[k]? = none := by
  constructor
  · intro hnil k
    apply Option.eq_none_iff_forall_ne_some.mpr
    intro y hy
    rw [← Std.TreeMap.mem_toList_iff_getElem?_eq_some, hnil] at hy
    exact absurd hy List.not_mem_nil
  · intro hnone
    apply List.eq_nil_iff_forall_not_mem.mpr
    rintro ⟨k, y⟩ hmem
    rw [Std.TreeMap.mem_toList_iff_getElem?_eq_some, hnone k] at hmem
    exact absurd hmem (by simp)

theorem least_of_head?_toList (h : m.toList.head? = some (k, y)) :
    m[k]? = some y ∧ ∀ j z, m[j]? = some z → k ≤ j := by
  obtain ⟨rest, hlist⟩ := List.head?_eq_some_iff.mp h
  have hasc := toList_ascending m
  rw [hlist, List.pairwise_cons] at hasc
  constructor
  · rw [← Std.TreeMap.mem_toList_iff_getElem?_eq_some, hlist]
    exact List.mem_cons_self
  · intro j z hj
    rw [← Std.TreeMap.mem_toList_iff_getElem?_eq_some, hlist] at hj
    rcases List.mem_cons.mp hj with heq | hmem
    · exact (congrArg Prod.fst heq).ge
    · exact (hasc.1 _ hmem).le

theorem greatest_of_getLast?_toList (h : m.toList.getLast? = some (k, y)) :
    m[k]? = some y ∧ ∀ j z, m[j]? = some z → j ≤ k := by
  obtain ⟨front, hlist⟩ := List.getLast?_eq_some_iff.mp h
  have hasc := toList_ascending m
  rw [hlist, List.pairwise_append] at hasc
  constructor
  · rw [← Std.TreeMap.mem_toList_iff_getElem?_eq_some, hlist]
    simp
  · intro j z hj
    rw [← Std.TreeMap.mem_toList_iff_getElem?_eq_some, hlist] at hj
    rcases List.mem_append.mp hj with hmem | hlast
    · exact (hasc.2.2 _ hmem _ (List.mem_singleton_self _)).le
    · exact (congrArg Prod.fst (List.mem_singleton.mp hlast)).le

theorem head?_toList_eq_some_iff :
    m.toList.head? = some (k, y) ↔ m[k]? = some y ∧ ∀ j z, m[j]? = some z → k ≤ j := by
  constructor
  · exact least_of_head?_toList
  · rintro ⟨hk, hleast⟩
    cases hhead : m.toList.head? with
    | none =>
        rw [toList_eq_nil_iff.mp (List.head?_eq_none_iff.mp hhead) k] at hk
        exact absurd hk (by simp)
    | some entry =>
        obtain ⟨j, z⟩ := entry
        obtain ⟨hj, hmin⟩ := least_of_head?_toList hhead
        obtain rfl := le_antisymm (hmin k y hk) (hleast j z hj)
        rw [hk] at hj
        rw [Option.some.inj hj]

theorem getLast?_toList_eq_some_iff :
    m.toList.getLast? = some (k, y) ↔ m[k]? = some y ∧ ∀ j z, m[j]? = some z → j ≤ k := by
  constructor
  · exact greatest_of_getLast?_toList
  · rintro ⟨hk, hgreatest⟩
    cases hlast : m.toList.getLast? with
    | none =>
        rw [toList_eq_nil_iff.mp (List.getLast?_eq_none_iff.mp hlast) k] at hk
        exact absurd hk (by simp)
    | some entry =>
        obtain ⟨j, z⟩ := entry
        obtain ⟨hj, hmax⟩ := greatest_of_getLast?_toList hlast
        obtain rfl := le_antisymm (hgreatest j z hj) (hmax k y hk)
        rw [hk] at hj
        rw [Option.some.inj hj]

end

section

variable {β ι : Type*} [DecidableEq ι]

/-- The entries of a list whose key no earlier entry has, in order. -/
def firsts (key : β → ι) : List β → List β
  | [] => []
  | x :: rest => x :: (firsts key rest).filter fun y => key y ≠ key x

theorem firsts_append (key : β → ι) (xs ys : List β) :
    firsts key (xs ++ ys) =
      firsts key xs ++ (firsts key ys).filter fun y => key y ∉ xs.map key := by
  induction xs with
  | nil => simp [firsts]
  | cons x xs ih =>
      simp only [List.cons_append, firsts, ih, List.filter_append, List.filter_filter]
      congr 3
      funext y
      simp

theorem exists_mem_firsts_iff {key : β → ι} {k : ι} {xs : List β} :
    (∃ x ∈ firsts key xs, key x = k) ↔ ∃ x ∈ xs, key x = k := by
  induction xs with
  | nil => simp [firsts]
  | cons x xs ih =>
      by_cases hk : key x = k
      · simp [firsts, hk]
      · simp only [firsts, List.mem_cons, List.mem_filter, exists_eq_or_imp, hk, false_or, ← ih]
        constructor
        · rintro ⟨y, ⟨hy, -⟩, hkey⟩
          exact ⟨y, hy, hkey⟩
        · rintro ⟨y, hy, rfl⟩
          exact ⟨y, ⟨hy, by simpa using Ne.symm hk⟩, rfl⟩

theorem nodup_map_firsts (key : β → ι) (xs : List β) : ((firsts key xs).map key).Nodup := by
  induction xs with
  | nil => exact List.nodup_nil
  | cons x xs ih =>
      rw [firsts, List.map_cons, List.nodup_cons]
      constructor
      · simp
      · exact ih.sublist (List.Sublist.map key List.filter_sublist)

theorem firsts_concat (key : β → ι) (xs : List β) (x : β) :
    firsts key (xs ++ [x]) =
      if key x ∈ xs.map key then firsts key xs else firsts key xs ++ [x] := by
  rw [firsts_append, firsts, firsts, List.filter_nil]
  by_cases hmem : key x ∈ xs.map key
  · rw [if_pos hmem, List.filter_eq_nil_iff.mpr, List.append_nil]
    simpa using hmem
  · rw [if_neg hmem, List.filter_eq_self.mpr]
    simpa using hmem

theorem ite_any_firsts {key : β → ι} {p : β → Bool} {x : β} (hp : ∀ y, p y ↔ key y = key x)
    (xs : List β) :
    (if (firsts key xs).any p then firsts key xs else firsts key xs ++ [x]) =
      firsts key (xs ++ [x]) := by
  have hany : (firsts key xs).any p ↔ key x ∈ xs.map key := by
    rw [List.any_eq_true, List.mem_map]
    simp only [hp]
    exact exists_mem_firsts_iff
  rw [firsts_concat]
  exact if_congr hany rfl rfl

theorem mem_of_mem_firsts {key : β → ι} {x : β} {xs : List β} (h : x ∈ firsts key xs) :
    x ∈ xs := by
  induction xs with
  | nil => exact h
  | cons y xs ih =>
      rcases List.mem_cons.mp h with rfl | hrest
      · exact List.mem_cons_self
      · exact List.mem_cons_of_mem _ (ih (List.mem_of_mem_filter hrest))

theorem forall_mem_firsts_iff {key : β → ι} {xs : List β} :
    (∀ x ∈ xs, x ∈ firsts key xs) ↔ ∀ x ∈ xs, ∀ y ∈ xs, key x = key y → x = y := by
  constructor
  · intro hall x hx y hy hkey
    exact List.inj_on_of_nodup_map (nodup_map_firsts key xs) (hall x hx) (hall y hy) hkey
  · intro hone x hx
    have hmem : ∃ y ∈ firsts key xs, key y = key x := exists_mem_firsts_iff.mpr ⟨x, hx, rfl⟩
    obtain ⟨y, hy, hkey⟩ := hmem
    rw [hone x hx y (mem_of_mem_firsts hy) hkey.symm]
    exact hy

end

end Rtt.KeyIndex
