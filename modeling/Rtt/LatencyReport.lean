import Rtt.BinaryFloat
import Rtt.DispatchTimes
import Rtt.OrderStatistics

namespace Rtt.Metrics

open Rtt.BinaryFloat
open Rtt.ClobExecutor
open Rtt.OrderStatistics

/-- The entries shown for one measure, in nanoseconds. -/
structure PercentileSet where
  p50 : Nat := 0
  p95 : Nat := 0
  p99 : Nat := 0
  p999 : Nat := 0
  max : Nat := 0
  deriving DecidableEq, Repr

/-- The report: two counts and the percentiles of seven measures. -/
structure StatsReport where
  sampleCount : Nat := 0
  reconnectCount : Nat := 0
  queueDelay : PercentileSet := {}
  prepTime : PercentileSet := {}
  triggerToWire : PercentileSet := {}
  writeDuration : PercentileSet := {}
  writeToFirstByte : PercentileSet := {}
  warmTtfb : PercentileSet := {}
  triggerToFirstByte : PercentileSet := {}
  deriving DecidableEq, Repr

/-- `round` agrees with that of the source on the numbers that occur, which are not
negative. -/
def percentileIndex (n : Nat) (p : ℚ) : Nat :=
  let idx := toWord (round (nearest (nearest (p / 100) * nearest (nearest n - 1))))
  min idx (n - 1)

/-- The entries at the ranks of the percentiles; zeros if there are no values. -/
def percentiles (values : List Nat) : PercentileSet :=
  if values.isEmpty then {}
  else
    let n := values.length
    let entry (rank : Nat) : Nat := (sorted values)[rank]?.getD 0
    { p50 := entry (percentileIndex n (nearest 50))
      p95 := entry (percentileIndex n (nearest 95))
      p99 := entry (percentileIndex n (nearest 99))
      p999 := entry (percentileIndex n (nearest (999 / 10)))
      max := entry (n - 1) }

structure StatsAggregator where
  records : List TimestampRecord
  deriving DecidableEq, Repr

namespace StatsAggregator

def new : StatsAggregator := { records := [] }

def add (self : StatsAggregator) (record : TimestampRecord) : StatsAggregator :=
  { records := self.records ++ [record] }

def warm (self : StatsAggregator) : List TimestampRecord :=
  self.records.filter fun record => !record.isReconnect

/-- `compute`: the percentiles are of the warm records, zeros if there are none. -/
def compute (self : StatsAggregator) : StatsReport :=
  let reconnectCount := self.records.countP fun record => record.isReconnect
  if self.warm.length = 0 then { sampleCount := 0, reconnectCount }
  else
    let extract (f : TimestampRecord → Nat) : List Nat := self.warm.map f
    { sampleCount := self.warm.length
      reconnectCount
      queueDelay := percentiles (extract TimestampRecord.queueDelay)
      prepTime := percentiles (extract TimestampRecord.prepTime)
      triggerToWire := percentiles (extract TimestampRecord.triggerToWire)
      writeDuration := percentiles (extract TimestampRecord.writeDuration)
      writeToFirstByte := percentiles (extract TimestampRecord.writeToFirstByte)
      warmTtfb := percentiles (extract TimestampRecord.warmTtfb)
      triggerToFirstByte := percentiles (extract TimestampRecord.triggerToFirstByte) }

end StatsAggregator

/-- What is measured of a record, and where the report shows it. -/
structure Metric where
  measure : TimestampRecord → Nat
  shown : StatsReport → PercentileSet

namespace Metric

@[simp] def queueDelay : Metric := ⟨TimestampRecord.queueDelay, StatsReport.queueDelay⟩

@[simp] def prepTime : Metric := ⟨TimestampRecord.prepTime, StatsReport.prepTime⟩

@[simp] def triggerToWire : Metric := ⟨TimestampRecord.triggerToWire, StatsReport.triggerToWire⟩

@[simp] def writeDuration : Metric := ⟨TimestampRecord.writeDuration, StatsReport.writeDuration⟩

@[simp] def writeToFirstByte : Metric :=
  ⟨TimestampRecord.writeToFirstByte, StatsReport.writeToFirstByte⟩

@[simp] def warmTtfb : Metric := ⟨TimestampRecord.warmTtfb, StatsReport.warmTtfb⟩

@[simp] def triggerToFirstByte : Metric :=
  ⟨TimestampRecord.triggerToFirstByte, StatsReport.triggerToFirstByte⟩

end Metric

def metrics : List Metric :=
  [.queueDelay, .prepTime, .triggerToWire, .writeDuration, .writeToFirstByte, .warmTtfb,
    .triggerToFirstByte]

/-- The measures of which the first is a part of the second. -/
def parts : List (Metric × Metric) :=
  [(.queueDelay, .triggerToWire), (.prepTime, .triggerToWire), (.writeDuration, .warmTtfb),
    (.writeToFirstByte, .warmTtfb), (.triggerToWire, .triggerToFirstByte),
    (.warmTtfb, .triggerToFirstByte)]

/-- A percentage and its entry. -/
structure Level where
  percent : ℚ
  shown : PercentileSet → Nat

def levels : List Level :=
  [⟨50, PercentileSet.p50⟩, ⟨95, PercentileSet.p95⟩, ⟨99, PercentileSet.p99⟩,
    ⟨999 / 10, PercentileSet.p999⟩]

def PercentileSet.entries (self : PercentileSet) : List Nat :=
  [self.p50, self.p95, self.p99, self.p999, self.max]

/-- Each entry is one of the values, they ascend up to the greatest value, and each is
surpassed by no more of the values, and surpasses no more, than its percentage tells.  The
values up to an entry and those from it on both count the entry itself. -/
structure Describes (values : List Nat) (set : PercentileSet) : Prop where
  sampled : ∀ entry ∈ set.entries, entry ∈ values
  ascending : set.entries.Pairwise (· ≤ ·)
  greatest : ∀ value ∈ values, value ≤ set.max
  upTo : ∀ level ∈ levels, level.percent / 100 * (values.length - 1) <
    values.countP fun value => decide (value ≤ level.shown set)
  downTo : ∀ level ∈ levels, (1 - level.percent / 100) * (values.length - 1) <
    values.countP fun value => decide (level.shown set ≤ value)

section Index

variable {n : Nat} {p q : ℚ}

theorem percentileIndex_lt (hn : 0 < n) (p : ℚ) : percentileIndex n p < n := by
  rw [percentileIndex]
  omega

/-- What the rank is rounded from. -/
def position (n : Nat) (p : ℚ) : ℚ := nearest (nearest (p / 100) * nearest (nearest n - 1))

theorem last_nonneg (hn : 0 < n) : 0 ≤ nearest (nearest (n : ℚ) - 1) := by
  have hone : nearest 1 = 1 := by
    have hexact := nearest_natCast (n := 1) (by norm_num)
    rwa [Nat.cast_one] at hexact
  have hn' : (1 : ℚ) ≤ n := by exact_mod_cast hn
  refine nearest_nonneg (sub_nonneg.mpr ?_)
  calc (1 : ℚ) = nearest 1 := hone.symm
    _ ≤ nearest n := nearest_mono zero_le_one hn'

theorem position_mono (hn : 0 < n) (hp : 0 ≤ p) (hpq : p ≤ q) : position n p ≤ position n q := by
  have hlast := last_nonneg hn
  have hhundredth : 0 ≤ nearest (p / 100) := nearest_nonneg (by positivity)
  refine nearest_mono (mul_nonneg hhundredth hlast) (mul_le_mul_of_nonneg_right ?_ hlast)
  exact nearest_mono (by positivity) (div_le_div_of_nonneg_right hpq (by norm_num))

theorem percentileIndex_mono (hn : 0 < n) (hp : 0 ≤ p) (hpq : p ≤ q) :
    percentileIndex n p ≤ percentileIndex n q := by
  have hround : ((round (position n p) : ℤ) : ℚ) ≤ round (position n q) := by
    rw [round_eq, round_eq]
    exact_mod_cast Int.floor_mono (by linarith [position_mono hn hp hpq])
  exact min_le_min_right _ (min_le_min_right _ (Nat.floor_mono hround))

/-- Three roundings move the rank by less than an eighth of a place. -/
theorem position_close (hn : 0 < n) (hle : n ≤ 2 ^ 48) (hp : 0 ≤ p) (hhundred : p ≤ 100) :
    |position n (nearest p) - p / 100 * (n - 1)| ≤ 1 / 8 := by
  obtain ⟨m, rfl⟩ : ∃ m, n = m + 1 := ⟨n - 1, by omega⟩
  have hm : (m : ℚ) ≤ 2 ^ 48 := by exact_mod_cast (by omega : m ≤ 2 ^ 48)
  have hlast : nearest (nearest ((m + 1 : ℕ) : ℚ) - 1) = m := by
    rw [nearest_natCast (by omega), Nat.cast_succ, add_sub_cancel_right, nearest_natCast (by omega)]
  rw [position, hlast, Nat.cast_succ, add_sub_cancel_right]
  have hliteral := nearest_nonneg hp
  have hpart := nearest_nonneg (x := nearest p / 100) (by positivity)
  have hm0 : (0 : ℚ) ≤ m := Nat.cast_nonneg m
  have hx : p / 100 * m ≤ 2 ^ 48 := by
    calc p / 100 * m ≤ 1 * m := mul_le_mul_of_nonneg_right (by linarith) hm0
      _ ≤ 2 ^ 48 := by linarith
  have hx0 : 0 ≤ p / 100 * m := by positivity
  have hhigh : nearest (nearest (nearest p / 100) * m) ≤
      p / 100 * m * (1 + 1 / 2 ^ 53) ^ 3 := by
    calc nearest (nearest (nearest p / 100) * m)
        ≤ nearest (nearest p / 100) * m * (1 + 1 / 2 ^ 53) := nearest_le (by positivity)
      _ ≤ nearest p / 100 * (1 + 1 / 2 ^ 53) * m * (1 + 1 / 2 ^ 53) := by
          gcongr
          exact nearest_le (by positivity)
      _ ≤ p * (1 + 1 / 2 ^ 53) / 100 * (1 + 1 / 2 ^ 53) * m * (1 + 1 / 2 ^ 53) := by
          gcongr
          exact nearest_le hp
      _ = p / 100 * m * (1 + 1 / 2 ^ 53) ^ 3 := by ring
  have hlow : p / 100 * m * (1 - 1 / 2 ^ 53) ^ 3 ≤
      nearest (nearest (nearest p / 100) * m) := by
    calc p / 100 * m * (1 - 1 / 2 ^ 53) ^ 3
        = p * (1 - 1 / 2 ^ 53) / 100 * (1 - 1 / 2 ^ 53) * m * (1 - 1 / 2 ^ 53) := by ring
      _ ≤ nearest p / 100 * (1 - 1 / 2 ^ 53) * m * (1 - 1 / 2 ^ 53) := by
          gcongr
          exact le_nearest hp
      _ ≤ nearest (nearest p / 100) * m * (1 - 1 / 2 ^ 53) := by
          gcongr
          exact le_nearest (by positivity)
      _ ≤ nearest (nearest (nearest p / 100) * m) := le_nearest (by positivity)
  rw [abs_le]
  constructor <;> nlinarith

theorem percentileIndex_close (hn : 0 < n) (hle : n ≤ 2 ^ 48) (hp : 0 ≤ p)
    (hhundred : p ≤ 100) :
    |(percentileIndex n (nearest p) : ℚ) - p / 100 * (n - 1)| < 1 := by
  have hclose := abs_le.mp (position_close hn hle hp hhundred)
  have hround := abs_le.mp (abs_sub_round (position n (nearest p)))
  have hposition : 0 ≤ position n (nearest p) := by
    have hhundredth : 0 ≤ nearest p / 100 := div_nonneg (nearest_nonneg hp) (by norm_num)
    exact nearest_nonneg (mul_nonneg (nearest_nonneg hhundredth) (last_nonneg hn))
  obtain ⟨k, hk⟩ : ∃ k : ℕ, round (position n (nearest p)) = k := by
    refine Int.eq_ofNat_of_zero_le ?_
    rw [round_eq]
    exact Int.floor_nonneg.mpr (by linarith)
  have hindex : percentileIndex n (nearest p) = min k (n - 1) := by
    change min (min ⌊((round (position n (nearest p)) : ℤ) : ℚ)⌋₊ _) _ = _
    rw [hk, Int.cast_natCast, Nat.floor_natCast]
    omega
  have hlast : ((n - 1 : ℕ) : ℚ) = n - 1 := by
    rw [Nat.cast_sub hn, Nat.cast_one]
  have htop : p / 100 * (n - 1 : ℚ) ≤ n - 1 := by
    have hn' : (1 : ℚ) ≤ n := by exact_mod_cast hn
    nlinarith
  rw [hk, Int.cast_natCast] at hround
  rw [hindex, abs_lt]
  rcases le_total k (n - 1) with hless | hmore
  · rw [min_eq_left hless]
    constructor <;> linarith
  · have hcast : ((n - 1 : ℕ) : ℚ) ≤ k := by exact_mod_cast hmore
    rw [hlast] at hcast
    rw [min_eq_right hmore, hlast]
    constructor <;> linarith

end Index

section Percentiles

variable {values : List Nat}

theorem getElem?_sorted (values : List Nat) {rank : Nat} (hrank : rank < values.length) :
    (sorted values)[rank]? = some ((sorted values)[rank]?.getD 0) := by
  rw [← length_sorted] at hrank
  rw [List.getElem?_eq_getElem hrank, Option.getD_some]

theorem entry_mono {low high : Nat} (hle : low ≤ high) (hhigh : high < values.length) :
    (sorted values)[low]?.getD 0 ≤ (sorted values)[high]?.getD 0 := by
  have hlow := getElem?_sorted values (hle.trans_lt hhigh)
  rw [sorted_le_iff _ hlow]
  exact hle.trans_lt (rank_lt_countP (getElem?_sorted values hhigh))

theorem entry_at_level {rank : Nat} {place : ℚ} (hrank : rank < values.length)
    (hclose : |(rank : ℚ) - place| < 1) :
    place < values.countP (fun value => decide (value ≤ (sorted values)[rank]?.getD 0)) ∧
      values.length - 1 - place <
        values.countP fun value => decide ((sorted values)[rank]?.getD 0 ≤ value) := by
  obtain ⟨hlow, hhigh⟩ := abs_lt.mp hclose
  have hentry := getElem?_sorted values hrank
  generalize (sorted values)[rank]?.getD 0 = entry at hentry
  constructor
  · have hbelow : ((rank + 1 : ℕ) : ℚ) ≤
        values.countP fun value => decide (value ≤ entry) := by
      exact_mod_cast rank_lt_countP hentry
    push_cast at hbelow
    linarith
  · have hsplit := List.length_eq_countP_add_countP (l := values)
      fun value => decide (value < entry)
    have hsame : (values.countP fun value => ¬ decide (value < entry) = true) =
        values.countP fun value => decide (entry ≤ value) := by
      refine List.countP_congr ?_
      intro value _
      simp
    rw [hsame] at hsplit
    have habove : (values.length : ℚ) ≤
        rank + values.countP fun value => decide (entry ≤ value) := by
      have hless := countP_lt_le hentry
      exact_mod_cast (by omega : values.length ≤
        rank + values.countP fun value => decide (entry ≤ value))
    linarith

/-- The ranks of the entries of a percentile set. -/
def ranks (n : Nat) : List Nat :=
  [percentileIndex n (nearest 50), percentileIndex n (nearest 95), percentileIndex n (nearest 99),
    percentileIndex n (nearest (999 / 10)), n - 1]

theorem ranks_ascending {n : Nat} (hn : 0 < n) : (ranks n).Pairwise (· ≤ ·) := by
  have hstep : ∀ {p q : ℚ}, 0 ≤ p → p ≤ q →
      percentileIndex n (nearest p) ≤ percentileIndex n (nearest q) := fun hp hpq =>
    percentileIndex_mono hn (nearest_nonneg hp) (nearest_mono hp hpq)
  have hlast := Nat.le_pred_of_lt (percentileIndex_lt hn (nearest (999 / 10)))
  refine List.isChain_iff_pairwise.mp ?_
  exact .cons_cons (hstep (by norm_num) (by norm_num)) <|
    .cons_cons (hstep (by norm_num) (by norm_num)) <|
      .cons_cons (hstep (by norm_num) (by norm_num)) <| .cons_cons hlast (.singleton _)

theorem ranks_lt {n : Nat} (hn : 0 < n) : ∀ rank ∈ ranks n, rank < n := by
  have hindex := fun p => percentileIndex_lt hn p
  simp only [ranks, List.forall_mem_cons]
  exact ⟨hindex _, hindex _, hindex _, hindex _, Nat.pred_lt_of_lt hn, by simp⟩

theorem entries_percentiles (hsome : values ≠ []) :
    (percentiles values).entries =
      (ranks values.length).map fun rank => (sorted values)[rank]?.getD 0 := by
  rw [percentiles, if_neg (by simpa using hsome)]
  rfl

theorem shown_percentiles (hsome : values ≠ []) :
    ∀ level ∈ levels, 0 ≤ level.percent ∧ level.percent ≤ 100 ∧
      level.shown (percentiles values) =
        (sorted values)[percentileIndex values.length (nearest level.percent)]?.getD 0 := by
  rw [percentiles, if_neg (by simpa using hsome)]
  simp only [levels, List.forall_mem_cons]
  norm_num

theorem describes_percentiles (hsome : values ≠ []) (hfew : values.length ≤ 2 ^ 48) :
    Describes values (percentiles values) := by
  have hn : 0 < values.length := List.length_pos_of_ne_nil hsome
  constructor
  · rw [entries_percentiles hsome, List.forall_mem_map]
    exact fun rank hrank => mem_of_getElem?_sorted (getElem?_sorted values (ranks_lt hn rank hrank))
  · rw [entries_percentiles hsome, List.pairwise_map]
    exact (ranks_ascending hn).imp_of_mem fun _ hhigh hle => entry_mono hle (ranks_lt hn _ hhigh)
  · have hlast := getElem?_sorted values (Nat.sub_lt hn Nat.one_pos)
    have hall : (values.countP fun value =>
        decide (value ≤ (sorted values)[values.length - 1]?.getD 0)) = values.length := by
      refine le_antisymm List.countP_le_length ?_
      have hrank := rank_lt_countP hlast
      omega
    rw [percentiles, if_neg (by simpa using hsome)]
    exact fun value hvalue => of_decide_eq_true (List.countP_eq_length.mp hall value hvalue)
  · intro level hlevel
    obtain ⟨hp, hhundred, hshown⟩ := shown_percentiles hsome level hlevel
    rw [hshown]
    exact (entry_at_level (percentileIndex_lt hn _)
      (percentileIndex_close hn hfew hp hhundred)).1
  · intro level hlevel
    obtain ⟨hp, hhundred, hshown⟩ := shown_percentiles hsome level hlevel
    have habove := (entry_at_level (percentileIndex_lt hn _)
      (percentileIndex_close hn hfew hp hhundred)).2
    rw [hshown]
    refine lt_of_eq_of_lt ?_ habove
    ring

theorem percentiles_le {records : List TimestampRecord} {f g : TimestampRecord → Nat}
    (hle : ∀ record ∈ records, f record ≤ g record) :
    List.Forall₂ (· ≤ ·) (percentiles (records.map f)).entries
      (percentiles (records.map g)).entries := by
  rcases records.eq_nil_or_concat with rfl | hsome
  · exact List.forall₂_same.mpr fun _ _ => le_rfl
  · have hne : ∀ h : TimestampRecord → Nat, records.map h ≠ [] := by
      obtain ⟨_, _, rfl⟩ := hsome
      simp
    have hn : 0 < records.length := by
      have hpos := List.length_pos_of_ne_nil (hne f)
      rwa [List.length_map] at hpos
    rw [entries_percentiles (hne f), entries_percentiles (hne g), List.length_map, List.length_map,
      List.forall₂_map_left_iff, List.forall₂_map_right_iff, List.forall₂_same]
    intro rank hrank
    have hless := ranks_lt hn rank hrank
    exact sorted_map_le hle (getElem?_sorted _ (by rwa [List.length_map]))
      (getElem?_sorted _ (by rwa [List.length_map]))

end Percentiles

section Report

variable {records : List TimestampRecord}

theorem compute_eq (self : StatsAggregator) (hsome : self.warm ≠ []) :
    self.compute.sampleCount = self.warm.length ∧
      ∀ metric ∈ metrics,
        metric.shown self.compute = percentiles (self.warm.map metric.measure) := by
  have hlength : self.warm.length ≠ 0 := by simpa using hsome
  rw [StatsAggregator.compute, if_neg hlength]
  simp [metrics]

theorem counts_compute (self : StatsAggregator) :
    self.compute.sampleCount + self.compute.reconnectCount = self.records.length := by
  have hsplit := List.length_eq_countP_add_countP (l := self.records)
    fun record => record.isReconnect
  have hcount : self.warm.length =
      self.records.countP fun record => ¬ record.isReconnect = true := by
    rw [StatsAggregator.warm, ← List.countP_eq_length_filter]
    refine List.countP_congr ?_
    intro record _
    simp
  rw [StatsAggregator.compute]
  split
  · rename_i hnone
    change 0 + self.records.countP (fun record => record.isReconnect) = _
    omega
  · change self.warm.length + self.records.countP (fun record => record.isReconnect) = _
    omega

theorem percentiles_eq_of_perm {values others : List Nat} (h : values.Perm others) :
    percentiles values = percentiles others := by
  rw [percentiles, percentiles, h.isEmpty_eq, h.length_eq, sorted_eq_of_perm h]

theorem compute_eq_of_perm {others : List TimestampRecord} (h : records.Perm others) :
    (StatsAggregator.mk records).compute = (StatsAggregator.mk others).compute := by
  have hwarm : (StatsAggregator.mk records).warm.Perm (StatsAggregator.mk others).warm :=
    h.filter _
  have hextract : ∀ f : TimestampRecord → Nat,
      percentiles ((StatsAggregator.mk records).warm.map f) =
        percentiles ((StatsAggregator.mk others).warm.map f) := fun f =>
    percentiles_eq_of_perm (hwarm.map f)
  simp only [StatsAggregator.compute, hwarm.length_eq, h.countP_eq, hextract]

theorem parts_le (self : StatsAggregator) (hordered : ∀ record ∈ self.records, record.Ordered) :
    ∀ pair ∈ parts, List.Forall₂ (· ≤ ·) (pair.1.shown self.compute).entries
      (pair.2.shown self.compute).entries := by
  rcases eq_or_ne self.warm [] with hnone | hsome
  · intro pair hpair
    rw [StatsAggregator.compute, if_pos (by rw [hnone, List.length_nil])]
    revert pair
    simp [parts]
  · have hshown := (compute_eq self hsome).2
    have hmem : ∀ pair ∈ parts, pair.1 ∈ metrics ∧ pair.2 ∈ metrics := by
      simp [parts, metrics]
    have hmeasure : ∀ pair ∈ parts, ∀ record ∈ self.warm,
        pair.1.measure record ≤ pair.2.measure record := by
      intro pair hpair record hrecord
      have hchain := (hordered record (List.mem_of_mem_filter hrecord)).chain
      revert pair
      simp only [parts, List.forall_mem_cons, Metric.queueDelay, Metric.prepTime,
        Metric.triggerToWire, Metric.writeDuration, Metric.writeToFirstByte, Metric.warmTtfb,
        Metric.triggerToFirstByte, TimestampRecord.queueDelay, TimestampRecord.prepTime,
        TimestampRecord.triggerToWire, TimestampRecord.writeDuration,
        TimestampRecord.writeToFirstByte, TimestampRecord.warmTtfb,
        TimestampRecord.triggerToFirstByte]
      refine ⟨?_, ?_, ?_, ?_, ?_, ?_, by simp⟩ <;> omega
    intro pair hpair
    rw [hshown _ (hmem pair hpair).1, hshown _ (hmem pair hpair).2]
    exact percentiles_le (hmeasure pair hpair)

/-- Whatever the order of the records, the report counts each as a sample or a reconnect,
and for each measure its entries ascend from one sample to another up to the greatest, each
at the place among the samples that its percentage tells, itself counted with those up to it
and with those from it on. -/
theorem report_describes (records : List TimestampRecord) (hfew : records.length ≤ 2 ^ 48) :
    let aggregator : StatsAggregator := { records }
    let report := aggregator.compute
    report.sampleCount + report.reconnectCount = records.length ∧
      (∀ others : List TimestampRecord, others.Perm records →
        (StatsAggregator.mk others).compute = report) ∧
      (aggregator.warm = [] → ∀ metric ∈ metrics, metric.shown report = {}) ∧
      (aggregator.warm ≠ [] → ∀ metric ∈ metrics,
        Describes (aggregator.warm.map metric.measure) (metric.shown report)) := by
  intro aggregator report
  refine ⟨counts_compute aggregator, fun others h => compute_eq_of_perm h, ?_, ?_⟩
  · intro hnone
    change ∀ metric ∈ metrics, metric.shown aggregator.compute = {}
    rw [StatsAggregator.compute, if_pos (by rw [hnone, List.length_nil])]
    simp [metrics]
  · intro hsome metric hmetric
    change Describes _ (metric.shown aggregator.compute)
    rw [(compute_eq aggregator hsome).2 metric hmetric]
    refine describes_percentiles (by simpa using hsome) ?_
    rw [List.length_map]
    exact (List.length_filter_le _ _).trans hfew

def queuedFor (delay : Nat) (isReconnect : Bool) : TimestampRecord :=
  { tTriggerRx := 1000, tExecStart := 1000 + delay, isReconnect }

/-- The reconnect is left out, so that the median is the larger of two delays. -/
theorem report_describes_reconnect :
    let aggregator : StatsAggregator :=
      { records := [queuedFor 300 false, queuedFor 900 true, queuedFor 200 false] }
    aggregator.compute.queueDelay.p50 = 300 ∧
      aggregator.compute.sampleCount + aggregator.compute.reconnectCount = 3 ∧
      Describes [300, 200] aggregator.compute.queueDelay := by
  intro aggregator
  have hdescribes := report_describes aggregator.records (by decide)
  exact ⟨by decide +kernel, hdescribes.1,
    hdescribes.2.2.2 (by decide) .queueDelay List.mem_cons_self⟩

end Report

end Rtt.Metrics
