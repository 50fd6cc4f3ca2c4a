import Mathlib.Data.List.Sort

namespace Rtt.OrderStatistics

variable {α ι : Type*} [LinearOrder α] {values others : List α}

def sorted (values : List α) : List α := values.insertionSort (· ≤ ·)

theorem sorted_perm (values : List α) : (sorted values).Perm values :=
  List.perm_insertionSort _ values

theorem length_sorted (values : List α) : (sorted values).length = values.length :=
  (sorted_perm values).length_eq

theorem pairwise_sorted (values : List α) : (sorted values).Pairwise (· ≤ ·) :=
  List.pairwise_insertionSort _ values

theorem mem_of_getElem?_sorted {rank : Nat} {value : α} (h : (sorted values)[rank]? = some value) :
    value ∈ values := (sorted_perm values).subset (List.mem_of_getElem? h)

theorem sorted_eq_of_perm (h : values.Perm others) : sorted values = sorted others := by
  refine List.Perm.eq_of_pairwise (fun _ _ _ _ => le_antisymm) (pairwise_sorted values)
    (pairwise_sorted others) ?_
  exact (sorted_perm values).trans (h.trans (sorted_perm others).symm)

theorem getElem?_le_iff {row : List α} (hrow : row.Pairwise (· ≤ ·)) (bound : α) :
    ∀ {rank : Nat} {value : α}, row[rank]? = some value →
      (value ≤ bound ↔ rank < row.countP fun entry => decide (entry ≤ bound)) := by
  induction row with
  | nil =>
      intro rank value hvalue
      exact absurd hvalue (by simp)
  | cons first rest ih =>
      intro rank value hvalue
      obtain ⟨hfirst, hrest⟩ := List.pairwise_cons.mp hrow
      have hbelow : ∀ entry ∈ first :: rest, first ≤ entry :=
        List.forall_mem_cons.mpr ⟨le_rfl, hfirst⟩
      rcases le_or_gt first bound with hle | hgt
      · rw [List.countP_cons_of_pos (by exact decide_eq_true hle)]
        cases rank with
        | zero =>
            obtain rfl := Option.some.inj hvalue
            exact ⟨fun _ => Nat.succ_pos _, fun _ => hle⟩
        | succ rank =>
            rw [List.getElem?_cons_succ] at hvalue
            rw [ih hrest hvalue]
            exact Nat.succ_lt_succ_iff.symm
      · have hnone : (first :: rest).countP (fun entry => decide (entry ≤ bound)) = 0 := by
          refine List.countP_eq_zero.mpr ?_
          intro entry hentry hle
          exact absurd ((hbelow entry hentry).trans (of_decide_eq_true hle)) (not_le.mpr hgt)
        have habove : bound < value := hgt.trans_le (hbelow value (List.mem_of_getElem? hvalue))
        rw [hnone]
        exact ⟨fun hle => absurd hle (not_le.mpr habove), fun hless => absurd hless (by simp)⟩

theorem sorted_le_iff (bound : α) {rank : Nat} {value : α}
    (h : (sorted values)[rank]? = some value) :
    value ≤ bound ↔ rank < values.countP fun entry => decide (entry ≤ bound) := by
  rw [getElem?_le_iff (pairwise_sorted values) bound h, (sorted_perm values).countP_eq]

theorem rank_lt_countP {rank : Nat} {value : α} (h : (sorted values)[rank]? = some value) :
    rank < values.countP fun entry => decide (entry ≤ value) :=
  (sorted_le_iff value h).mp le_rfl

theorem countP_lt_le {rank : Nat} {value : α} (h : (sorted values)[rank]? = some value) :
    (values.countP fun entry => decide (entry < value)) ≤ rank := by
  obtain ⟨hrank, hvalue⟩ := List.getElem?_eq_some_iff.mp h
  have hsplit : sorted values = (sorted values).take rank ++ value ::
      (sorted values).drop (rank + 1) := by
    rw [← hvalue, ← List.drop_eq_getElem_cons hrank, List.take_append_drop]
  have hrest : ∀ entry ∈ value :: (sorted values).drop (rank + 1),
      ¬ decide (entry < value) = true := by
    have hrow := pairwise_sorted values
    rw [hsplit, List.pairwise_append, List.pairwise_cons] at hrow
    refine List.forall_mem_cons.mpr ⟨by simp, ?_⟩
    intro entry hentry
    simpa using hrow.2.1.1 entry hentry
  calc (values.countP fun entry => decide (entry < value))
      = (sorted values).countP fun entry => decide (entry < value) :=
        ((sorted_perm values).countP_eq _).symm
    _ = ((sorted values).take rank).countP fun entry => decide (entry < value) := by
        conv_lhs => rw [hsplit]
        rw [List.countP_append, List.countP_eq_zero.mpr hrest, Nat.add_zero]
    _ ≤ ((sorted values).take rank).length := List.countP_le_length
    _ ≤ rank := List.length_take_le _ _

theorem sorted_map_le {entries : List ι} {f g : ι → α} (hle : ∀ entry ∈ entries, f entry ≤ g entry)
    {rank : Nat} {lower upper : α} (hlower : (sorted (entries.map f))[rank]? = some lower)
    (hupper : (sorted (entries.map g))[rank]? = some upper) : lower ≤ upper := by
  rw [sorted_le_iff upper hlower]
  refine (rank_lt_countP hupper).trans_le ?_
  rw [List.countP_map, List.countP_map]
  refine List.countP_mono_left ?_
  intro entry hentry hbound
  exact decide_eq_true ((hle entry hentry).trans (of_decide_eq_true hbound))

end Rtt.OrderStatistics
