import Mathlib
import Rtt.MachineWord

/-!
Decimal numerals as text: the numbers they denote, the integer parser of the
source language and fixed-point rendering.
-/

namespace Rtt.Decimal

open Rtt.MachineWord

/-- A plain decimal: digits and, after an optional point, further digits. -/
structure Numeral where
  whole : List Char
  fraction : Option (List Char)
  whole_digits : ∀ c ∈ whole, c.isDigit
  fraction_digits : ∀ c ∈ fraction.getD [], c.isDigit
  digits_ne_nil : whole ++ fraction.getD [] ≠ []

theorem zero_digits : ∀ c ∈ ['0'], c.isDigit := by simp

namespace Numeral

/-- The digits after the point, none if there is no point. -/
def places (d : Numeral) : List Char := d.fraction.getD []

theorem places_digits (d : Numeral) : ∀ c ∈ d.places, c.isDigit := d.fraction_digits

def text (d : Numeral) : List Char :=
  match d.fraction with
  | none => d.whole
  | some digits => d.whole ++ '.' :: digits

theorem text_ne_nil {d : Numeral} (hwhole : d.whole ≠ []) : d.text ≠ [] := by
  simp only [text]
  split
  · exact hwhole
  · simp

def render (d : Numeral) : String := String.ofList d.text

/-- The number that the numeral denotes. -/
def value (d : Numeral) : ℚ :=
  Nat.ofDigitChars 10 d.whole 0 +
    Nat.ofDigitChars 10 d.places 0 / 10 ^ d.places.length

/-- The number in units of `10 ^ -width`, exact when at most `width` digits
stand after the point. -/
def scaled (width : Nat) (d : Numeral) : Nat :=
  Nat.ofDigitChars 10 d.whole 0 * 10 ^ width +
    Nat.ofDigitChars 10 (d.places ++ List.replicate (width - d.places.length) '0') 0

theorem scaled_eq_value_mul {width : Nat} (d : Numeral)
    (hplaces : d.places.length ≤ width) :
    (d.scaled width : ℚ) = d.value * 10 ^ width := by
  have hpow : (10 : ℚ) ^ width =
      10 ^ d.places.length * 10 ^ (width - d.places.length) := by
    rw [← pow_add, Nat.add_sub_cancel' hplaces]
  simp only [scaled, value, Nat.ofDigitChars_append, Nat.ofDigitChars_replicate_zero]
  push_cast
  rw [hpow]
  field_simp

end Numeral

/-- A whole part and, after a point, a fraction. -/
def pointed (whole : List Char) (fraction : Option (List Char)) : List Char :=
  match fraction with
  | none => whole
  | some digits => whole ++ '.' :: digits

theorem ofDigitChars_concat (digits : List Char) (c : Char) :
    Nat.ofDigitChars 10 (digits ++ [c]) 0 =
      Nat.ofDigitChars 10 digits 0 * 10 + (c.toNat - '0'.toNat) := by
  rw [Nat.ofDigitChars_append, Nat.ofDigitChars_cons, Nat.ofDigitChars_nil, Nat.mul_comm]

theorem digit_le_nine {c : Char} (hc : c.isDigit) : c.toNat - '0'.toNat ≤ 9 := by
  simp only [Char.isDigit, Bool.and_eq_true, decide_eq_true_eq] at hc
  have hhigh : c.toNat ≤ 57 := hc.2
  simp only [Char.reduceToNat]
  omega

theorem ofDigitChars_lt {digits : List Char} (hdigits : ∀ c ∈ digits, c.isDigit) :
    Nat.ofDigitChars 10 digits 0 < 10 ^ digits.length := by
  induction digits using List.reverseRecOn with
  | nil => simp
  | append_singleton digits c ih =>
      have hlt := ih fun c hc => hdigits c (by simp [hc])
      have hc := digit_le_nine (hdigits c (by simp))
      rw [ofDigitChars_concat, List.length_append, List.length_singleton, pow_succ]
      omega

/-- The text is a plain decimal for the given number. -/
def Denotes (s : String) (x : ℚ) : Prop := ∃ d : Numeral, d.render = s ∧ d.value = x

theorem point_notMem_digits {ds : List Char} (h : ∀ c ∈ ds, c.isDigit) : '.' ∉ ds :=
  fun hmem => absurd (h _ hmem) (by decide)

theorem splitOn_text (d : Numeral) :
    d.text.splitOn '.' = d.whole :: d.fraction.toList := by
  have hwhole := point_notMem_digits d.whole_digits
  have hplaces := point_notMem_digits d.fraction_digits
  simp only [Numeral.text]
  cases hfraction : d.fraction with
  | none => exact List.splitOn_eq_singleton hwhole
  | some digits =>
      rw [hfraction, Option.getD_some] at hplaces
      simp only [Option.toList_some]
      rw [List.splitOn_append_cons_self_of_not_mem hwhole,
        List.splitOn_eq_singleton hplaces]

theorem Denotes.unique {s : String} {x y : ℚ} (hx : Denotes s x) (hy : Denotes s y) :
    x = y := by
  obtain ⟨d, hd, rfl⟩ := hx
  obtain ⟨e, he, rfl⟩ := hy
  have htext : d.text = e.text := String.ofList_injective (hd.trans he.symm)
  have hsplit : d.whole :: d.fraction.toList = e.whole :: e.fraction.toList := by
    rw [← splitOn_text, ← splitOn_text, htext]
  obtain ⟨hwhole, hlist⟩ := List.cons.inj hsplit
  have hfraction : d.fraction = e.fraction := by
    simpa using congrArg List.head? hlist
  simp only [Numeral.value, Numeral.places, hwhole, hfraction]

/-- A single leading plus sign is skipped by the integer parser. -/
def stripPlus : List Char → List Char
  | '+' :: c :: rest => c :: rest
  | text => text

/-- `str::parse::<u64>`: an optional plus sign and at least one digit, with a
value that fits the word. -/
def parseU64 (text : List Char) : Option Nat :=
  let digits := stripPlus text
  if digits ≠ [] ∧ digits.all Char.isDigit ∧ Nat.ofDigitChars 10 digits 0 < wordSize then
    some (Nat.ofDigitChars 10 digits 0)
  else none

theorem stripPlus_digits {ds : List Char} (hdigits : ∀ c ∈ ds, c.isDigit) :
    stripPlus ds = ds := by
  rw [stripPlus.eq_2]
  rintro c rest rfl
  exact absurd (hdigits '+' (by simp)) (by decide)

theorem parseU64_digits {ds : List Char} (hdigits : ∀ c ∈ ds, c.isDigit) (hne : ds ≠ [])
    (hfits : Nat.ofDigitChars 10 ds 0 < wordSize) :
    parseU64 ds = some (Nat.ofDigitChars 10 ds 0) := by
  simp only [parseU64, stripPlus_digits hdigits]
  rw [if_pos ⟨hne, List.all_eq_true.mpr hdigits, hfits⟩]

def plusSign (plus : Bool) : List Char := if plus then ['+'] else []

theorem plusSign_stripPlus (text : List Char) :
    ∃ plus, plusSign plus ++ stripPlus text = text := by
  rcases text with _ | ⟨c, text⟩
  · exact ⟨false, rfl⟩
  · by_cases hplus : c = '+' ∧ text ≠ []
    · obtain ⟨rfl, hne⟩ := hplus
      obtain ⟨d, rest, rfl⟩ := List.exists_cons_of_ne_nil hne
      exact ⟨true, rfl⟩
    · refine ⟨false, ?_⟩
      rw [stripPlus.eq_2]
      · rfl
      · intro d rest heq
        obtain ⟨rfl, rfl⟩ := List.cons.inj heq
        exact hplus ⟨rfl, List.cons_ne_nil _ _⟩

theorem parseU64_eq_some_iff {text : List Char} {n : Nat} :
    parseU64 text = some n ↔
      ∃ plus digits, plusSign plus ++ digits = text ∧ digits ≠ [] ∧ (∀ c ∈ digits, c.isDigit) ∧
        Nat.ofDigitChars 10 digits 0 = n ∧ n < wordSize := by
  constructor
  · intro h
    simp only [parseU64] at h
    split_ifs at h with hdigits
    obtain ⟨hne, hall, hfits⟩ := hdigits
    obtain ⟨plus, htext⟩ := plusSign_stripPlus text
    have hvalue := Option.some.inj h
    exact ⟨plus, stripPlus text, htext, hne, List.all_eq_true.mp hall, hvalue, hvalue ▸ hfits⟩
  · rintro ⟨plus, digits, rfl, hne, hall, rfl, hfits⟩
    have hstrip : stripPlus (plusSign plus ++ digits) = digits := by
      cases plus with
      | false => exact stripPlus_digits hall
      | true =>
          obtain ⟨d, rest, rfl⟩ := List.exists_cons_of_ne_nil hne
          rfl
    simp only [parseU64, hstrip]
    rw [if_pos ⟨hne, List.all_eq_true.mpr hall, hfits⟩]

/-- The first `width` bytes of a text, read back as text.  There is none when
the cut falls inside a character. -/
def truncateUtf8 (width : Nat) : List Char → Option (List Char)
  | [] => some []
  | c :: rest =>
      if width = 0 then some []
      else if c.utf8Size ≤ width then
        (truncateUtf8 (width - c.utf8Size) rest).map (c :: ·)
      else none

theorem utf8Size_of_isDigit {c : Char} (h : c.isDigit) : c.utf8Size = 1 := by
  rw [Char.utf8Size_eq_one_iff]
  simp only [Char.isDigit, Bool.and_eq_true, decide_eq_true_eq] at h
  exact UInt32.le_trans h.2 (by decide)

theorem truncateUtf8_digits {ds : List Char} {width : Nat}
    (hdigits : ∀ c ∈ ds, c.isDigit) (hlen : ds.length ≤ width) :
    truncateUtf8 width ds = some ds := by
  induction ds generalizing width with
  | nil => rfl
  | cons c ds ih =>
      have hsize := utf8Size_of_isDigit (hdigits c (by simp))
      have hwidth : 1 ≤ width := le_trans (by simp) hlen
      simp only [truncateUtf8, hsize]
      rw [if_neg (by omega), if_pos hwidth,
        ih (fun c hc => hdigits c (by simp [hc])) (by
          simp only [List.length_cons] at hlen
          omega)]
      rfl

/-- Zeros are appended up to a width, which counts bytes. -/
def zeroExtend (width : Nat) (text : List Char) : List Char :=
  text ++ List.replicate (width - (text.map Char.utf8Size).sum) '0'

theorem zeroExtend_digits {ds : List Char} {width : Nat}
    (hdigits : ∀ c ∈ ds, c.isDigit) :
    zeroExtend width ds = ds ++ List.replicate (width - ds.length) '0' := by
  have hsizes : ds.map Char.utf8Size = ds.map fun _ => 1 :=
    List.map_congr_left fun c hc => utf8Size_of_isDigit (hdigits c hc)
  rw [zeroExtend, hsizes]
  simp

/-- The characters that `str::trim` removes at both ends: Unicode white space. -/
def isWhitespace (c : Char) : Bool :=
  let n := c.toNat
  (9 ≤ n && n ≤ 13) || n == 0x20 || n == 0x85 || n == 0xA0 || n == 0x1680 ||
    (0x2000 ≤ n && n ≤ 0x200A) || n == 0x2028 || n == 0x2029 || n == 0x202F || n == 0x205F ||
    n == 0x3000

def trim (text : List Char) : List Char :=
  ((text.dropWhile isWhitespace).reverse.dropWhile isWhitespace).reverse

theorem trim_eq_self {text : List Char} (h : ∀ c ∈ text, isWhitespace c = false) :
    trim text = text := by
  have hdrop : ∀ cs : List Char, (∀ c ∈ cs, isWhitespace c = false) →
      cs.dropWhile isWhitespace = cs := by
    intro cs hcs
    cases cs with
    | nil => rfl
    | cons c cs => rw [List.dropWhile_cons, hcs c (by simp)]; rfl
  rw [trim, hdrop text h, hdrop _ fun c hc => h c (List.mem_reverse.mp hc), List.reverse_reverse]

theorem isWhitespace_of_isDigit {c : Char} (h : c.isDigit) : isWhitespace c = false := by
  simp only [Char.isDigit, Bool.and_eq_true, decide_eq_true_eq] at h
  have hlow : 48 ≤ c.toNat := h.1
  have hhigh : c.toNat ≤ 57 := h.2
  simp only [isWhitespace, Bool.or_eq_false_iff, Bool.and_eq_false_iff, decide_eq_false_iff_not,
    beq_eq_false_iff_ne]
  omega

/-- Decimal digits with leading zeros up to a width, as `{n:0width}` prints. -/
def zeroPadded (width n : Nat) : List Char :=
  List.replicate (width - (Nat.toDigits 10 n).length) '0' ++ Nat.toDigits 10 n

theorem zeroPadded_digits (width n : Nat) : ∀ c ∈ zeroPadded width n, c.isDigit := by
  intro c hc
  rcases List.mem_append.mp hc with hzero | hdigit
  · rw [List.eq_of_mem_replicate hzero]
    decide
  · exact Nat.isDigit_of_mem_toDigits (by omega) (by omega) hdigit

theorem ofDigitChars_zeroPadded (width n : Nat) :
    Nat.ofDigitChars 10 (zeroPadded width n) 0 = n := by
  rw [zeroPadded, Nat.ofDigitChars_append, Nat.ofDigitChars_replicate_zero,
    Nat.mul_zero, Nat.ofDigitChars_ten_toDigits]

theorem zeroPadded_length {width n : Nat} (hwidth : 0 < width) (hn : n < 10 ^ width) :
    (zeroPadded width n).length = width := by
  have hlen : (Nat.toDigits 10 n).length ≤ width :=
    (Nat.length_toDigits_le_iff (by omega) hwidth).mpr hn
  rw [zeroPadded, List.length_append, List.length_replicate]
  omega

/-- A count of units with the given number of decimal places. -/
def fixedPoint (width units : Nat) : Numeral where
  whole := Nat.toDigits 10 (units / 10 ^ width)
  fraction := some (zeroPadded width (units % 10 ^ width))
  whole_digits := fun _ hc => Nat.isDigit_of_mem_toDigits (by omega) (by omega) hc
  fraction_digits := zeroPadded_digits _ _
  digits_ne_nil := by simp

theorem whole_fixedPoint_ne_nil (width units : Nat) : (fixedPoint width units).whole ≠ [] := by
  simp [fixedPoint]

theorem places_fixedPoint_length {width : Nat} (hwidth : 0 < width) (units : Nat) :
    (fixedPoint width units).places.length = width :=
  zeroPadded_length hwidth (Nat.mod_lt _ (pow_pos (by omega) _))

theorem scaled_fixedPoint {width : Nat} (hwidth : 0 < width) (units : Nat) :
    (fixedPoint width units).scaled width = units := by
  simp only [Numeral.scaled, places_fixedPoint_length hwidth, Nat.sub_self, List.replicate_zero,
    List.append_nil]
  simp only [fixedPoint, Numeral.places, Option.getD_some, Nat.ofDigitChars_ten_toDigits,
    ofDigitChars_zeroPadded]
  rw [Nat.mul_comm]
  exact Nat.div_add_mod units _

theorem value_fixedPoint {width : Nat} (hwidth : 0 < width) (units : Nat) :
    (fixedPoint width units).value = units / 10 ^ width := by
  have hvalue := (fixedPoint width units).scaled_eq_value_mul
    (places_fixedPoint_length hwidth units).le
  rw [scaled_fixedPoint hwidth] at hvalue
  rw [hvalue]
  field_simp

section TrailingZeros

theorem rdropWhile_append_replicate (c : Char) (cs : List Char) :
    cs.rdropWhile (· = c) ++
      List.replicate (cs.length - (cs.rdropWhile (· = c)).length) c = cs := by
  induction cs using List.reverseRecOn with
  | nil => rfl
  | append_singleton cs d ih =>
      by_cases hd : d = c
      · have hle : (cs.rdropWhile (· = c)).length ≤ cs.length :=
          (List.rdropWhile_prefix _ cs).length_le
        rw [List.rdropWhile_concat, if_pos (decide_eq_true hd), List.length_append,
          List.length_singleton, Nat.sub_add_comm hle, List.replicate_succ', ← List.append_assoc,
          ih, hd]
      · rw [List.rdropWhile_concat, if_neg (by simpa using hd)]
        simp

theorem rdropWhile_append (p : Char → Bool) (cs ds : List Char) :
    (cs ++ ds).rdropWhile p =
      if ds.rdropWhile p = [] then cs.rdropWhile p else cs ++ ds.rdropWhile p := by
  simp only [List.rdropWhile, List.reverse_append, List.dropWhile_append, List.isEmpty_iff,
    List.reverse_eq_nil_iff]
  split
  · rfl
  · rw [List.reverse_append, List.reverse_reverse]

theorem rdropWhile_point (digits : List Char) :
    ('.' :: digits).rdropWhile (· = '0') = '.' :: digits.rdropWhile (· = '0') := by
  rw [← List.singleton_append, rdropWhile_append]
  split
  · rename_i hnil
    rw [hnil]
    rfl
  · rfl

namespace Numeral

variable (d : Numeral) (hwhole : d.whole ≠ [])

/-- The numeral without the zeros that its places end in. -/
def trimZeros : Numeral where
  whole := d.whole
  fraction :=
    if d.places.rdropWhile (· = '0') = [] then none else some (d.places.rdropWhile (· = '0'))
  whole_digits := d.whole_digits
  fraction_digits := by
    intro c hc
    split at hc
    · exact absurd hc (by simp)
    · exact d.places_digits c ((List.rdropWhile_prefix _ _).subset hc)
  digits_ne_nil := by simp [hwhole]

theorem places_trimZeros : (d.trimZeros hwhole).places = d.places.rdropWhile (· = '0') := by
  change (ite _ none (some (d.places.rdropWhile (· = '0')))).getD [] = _
  split
  · rename_i hnil
    rw [hnil, Option.getD_none]
  · rfl

theorem places_trimZeros_length_le :
    (d.trimZeros hwhole).places.length ≤ d.places.length := by
  rw [places_trimZeros]
  exact (List.rdropWhile_prefix _ _).length_le

theorem scaled_trimZeros {width : Nat} (hplaces : d.places.length ≤ width) :
    (d.trimZeros hwhole).scaled width = d.scaled width := by
  have hle := d.places_trimZeros_length_le hwhole
  have hzeros := rdropWhile_append_replicate '0' d.places
  rw [← d.places_trimZeros hwhole] at hzeros
  have hextended : (d.trimZeros hwhole).places ++
      List.replicate (width - (d.trimZeros hwhole).places.length) '0' =
        d.places ++ List.replicate (width - d.places.length) '0' := by
    conv_rhs => rw [← hzeros]
    rw [List.append_assoc, List.replicate_append_replicate, hzeros]
    congr 2
    omega
  simp only [scaled, hextended]
  rfl

theorem text_trimZeros {digits : List Char} (hfraction : d.fraction = some digits) :
    (d.text.rdropWhile (· = '0')).rdropWhile (· = '.') = (d.trimZeros hwhole).text := by
  have hplaces : d.places = digits := by rw [places, hfraction, Option.getD_some]
  have hpoint := rdropWhile_point digits
  have hdigits : ∀ {cs : List Char}, (∀ c ∈ cs, c.isDigit) → cs.rdropWhile (· = '.') = cs := by
    intro cs hcs
    rw [List.rdropWhile_eq_self_iff]
    intro hne
    have hlast := hcs _ (List.getLast_mem hne)
    simp only [decide_eq_true_eq]
    rintro hdot
    rw [hdot] at hlast
    exact absurd hlast (by decide)
  have hkept : ∀ c ∈ digits.rdropWhile (· = '0'), c.isDigit := by
    intro c hc
    exact d.places_digits c (hplaces ▸ (List.rdropWhile_prefix _ _).subset hc)
  have htext : d.text = d.whole ++ '.' :: digits := by
    simp only [text, hfraction]
  rw [htext, rdropWhile_append, if_neg (by simp [hpoint]), hpoint, rdropWhile_append]
  simp only [text, trimZeros, hplaces]
  by_cases hnil : digits.rdropWhile (· = '0') = []
  · rw [hnil, if_pos (by rfl), if_pos rfl]
    exact hdigits d.whole_digits
  · have hdot : ('.' :: digits.rdropWhile (· = '0')).rdropWhile (· = '.') =
        '.' :: digits.rdropWhile (· = '0') := by
      rw [← List.singleton_append, rdropWhile_append, hdigits hkept, if_neg hnil]
    rw [hdot, if_neg (by simp), if_neg hnil]

/-- What stands after the point is something that does not end in a zero. -/
def IsTrimmed : Prop :=
  ∀ digits, d.fraction = some digits → ∃ last, digits.getLast? = some last ∧ last ≠ '0'

theorem isTrimmed_trimZeros : (d.trimZeros hwhole).IsTrimmed := by
  intro digits hfraction
  change (ite _ none (some (d.places.rdropWhile (· = '0')))) = some digits at hfraction
  split at hfraction
  · exact absurd hfraction (by simp)
  · rename_i hne
    obtain rfl := Option.some.inj hfraction
    refine ⟨_, List.getLast?_eq_getLast_of_ne_nil hne, ?_⟩
    simpa using List.rdropWhile_last_not (· = '0') d.places hne

end Numeral

/-- The number in units of `10 ^ -width`, without zeros at the end of its places. -/
def trimmedFixedPoint (width units : Nat) : Numeral :=
  (fixedPoint width units).trimZeros (whole_fixedPoint_ne_nil width units)

section

variable {width : Nat} (hwidth : 0 < width) (units : Nat)

include hwidth

theorem places_trimmedFixedPoint_length_le :
    (trimmedFixedPoint width units).places.length ≤ width :=
  (Numeral.places_trimZeros_length_le _ _).trans (places_fixedPoint_length hwidth units).le

theorem scaled_trimmedFixedPoint : (trimmedFixedPoint width units).scaled width = units :=
  (Numeral.scaled_trimZeros _ _ (places_fixedPoint_length hwidth units).le).trans
    (scaled_fixedPoint hwidth units)

theorem value_trimmedFixedPoint : (trimmedFixedPoint width units).value = units / 10 ^ width := by
  have hvalue := (trimmedFixedPoint width units).scaled_eq_value_mul
    (places_trimmedFixedPoint_length_le hwidth units)
  rw [scaled_trimmedFixedPoint hwidth] at hvalue
  rw [hvalue]
  field_simp

end

theorem rdropWhile_zeroPadded_eq_nil_iff {width n : Nat} :
    (zeroPadded width n).rdropWhile (· = '0') = [] ↔ n = 0 := by
  rw [List.rdropWhile_eq_nil_iff]
  constructor
  · intro hzeros
    have hall : zeroPadded width n = List.replicate (zeroPadded width n).length '0' :=
      List.eq_replicate_of_mem fun c hc => by simpa using hzeros c hc
    rw [← ofDigitChars_zeroPadded width n, hall, Nat.ofDigitChars_replicate_zero, Nat.mul_zero]
  · rintro rfl c hc
    rcases List.mem_append.mp hc with hzero | hdigit
    · simpa using List.eq_of_mem_replicate hzero
    · simpa using hdigit

end TrailingZeros

end Rtt.Decimal
