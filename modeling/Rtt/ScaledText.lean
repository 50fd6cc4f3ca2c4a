import Rtt.HotState

namespace Rtt.ScaledText

open Rtt.Decimal
open Rtt.MachineWord
open Rtt.HotState

/-- What may stand after the point: an optional plus and digits, six characters
of them at most, and anything but a point from the seventh character on. -/
structure LenientPlaces where
  plus : Bool
  digits : List Char
  rest : List Char
  digits_isDigit : ∀ c ∈ digits, c.isDigit
  read_le : (plusSign plus ++ digits).length ≤ 6
  rest_eq_nil : (plusSign plus ++ digits).length < 6 → rest = []
  point_notMem : '.' ∉ rest

/-- What the hot state reads as a number. -/
structure LenientText where
  plus : Bool
  whole : List Char
  fraction : Option LenientPlaces
  whole_isDigit : ∀ c ∈ whole, c.isDigit
  whole_ne_nil : whole ≠ []

namespace LenientPlaces

variable (p : LenientPlaces)

def read : List Char := plusSign p.plus ++ p.digits

def text : List Char := p.read ++ p.rest

/-- The millionths that these digits of a fraction stand for. -/
def units : Nat :=
  Nat.ofDigitChars 10 (p.digits ++ List.replicate (6 - p.read.length) '0') 0

theorem take_text : p.text.take 6 = p.read := by
  have hle : p.read.length ≤ 6 := p.read_le
  rw [text, List.take_append]
  by_cases hlt : p.read.length < 6
  · rw [p.rest_eq_nil hlt, List.take_nil, List.append_nil, List.take_of_length_le hle]
  · rw [List.take_of_length_le hle, Nat.sub_eq_zero_of_le (not_lt.mp hlt), List.take_zero,
      List.append_nil]

end LenientPlaces

theorem utf8Size_of_mem_plusSign {plus : Bool} {c : Char} (hc : c ∈ plusSign plus) :
    c.utf8Size = 1 := by
  cases plus with
  | false => simp [plusSign] at hc
  | true =>
      rw [show c = '+' by simpa [plusSign] using hc]
      rfl

theorem point_notMem_plusSign {plus : Bool} : '.' ∉ plusSign plus := by
  cases plus <;> decide

theorem zeroExtend_signed {plus : Bool} {digits : List Char}
    (hdigits : ∀ c ∈ digits, c.isDigit) :
    zeroExtend 6 (plusSign plus ++ digits) = plusSign plus ++
      (digits ++ List.replicate (6 - (plusSign plus ++ digits).length) '0') := by
  have hsizes : (plusSign plus ++ digits).map Char.utf8Size =
      (plusSign plus ++ digits).map fun _ => 1 := by
    apply List.map_congr_left
    intro c hc
    rcases List.mem_append.mp hc with hc | hc
    · exact utf8Size_of_mem_plusSign hc
    · exact utf8Size_of_isDigit (hdigits c hc)
  rw [zeroExtend, hsizes, List.append_assoc]
  simp

theorem padded_isDigit {digits : List Char} (hdigits : ∀ c ∈ digits, c.isDigit) (k : Nat) :
    ∀ c ∈ digits ++ List.replicate k '0', c.isDigit := by
  intro c hc
  rcases List.mem_append.mp hc with hc | hc
  · exact hdigits c hc
  · rw [List.eq_of_mem_replicate hc]
    decide

theorem LenientPlaces.parse (p : LenientPlaces) :
    parseU64 (zeroExtend 6 (p.text.take 6)) = some p.units := by
  have hdigits := padded_isDigit p.digits_isDigit (6 - p.read.length)
  have hread : p.read.length ≤ 6 := p.read_le
  have hlen : p.read.length = (plusSign p.plus).length + p.digits.length := by
    rw [LenientPlaces.read, List.length_append]
  have hplus : (plusSign p.plus).length ≤ 1 := by cases p.plus <;> decide
  have hpadded : (p.digits ++ List.replicate (6 - p.read.length) '0').length ≤ 6 ∧
      (p.digits ++ List.replicate (6 - p.read.length) '0') ≠ [] := by
    rw [← List.length_pos_iff, List.length_append, List.length_replicate]
    omega
  rw [p.take_text, LenientPlaces.read, zeroExtend_signed p.digits_isDigit]
  refine parseU64_eq_some_iff.mpr ⟨p.plus, _, rfl, hpadded.2, hdigits, rfl, ?_⟩
  refine (ofDigitChars_lt hdigits).trans_le ?_
  exact (Nat.pow_le_pow_right (by omega) hpadded.1).trans (by decide)

theorem exists_digits_of_append {plus : Bool} {kept padded : List Char} {k : Nat}
    (h : plusSign plus ++ padded = kept ++ List.replicate k '0') :
    ∃ digits, plusSign plus ++ digits = kept ∧ digits ++ List.replicate k '0' = padded := by
  cases plus with
  | false => exact ⟨kept, rfl, h.symm⟩
  | true =>
      rcases kept with _ | ⟨c, digits⟩
      · have hhead : '+' ∈ List.replicate k '0' := by
          rw [List.nil_append] at h
          rw [← h]
          simp [plusSign]
        exact absurd (List.eq_of_mem_replicate hhead) (by decide)
      · obtain ⟨rfl, htail⟩ := List.cons.inj h
        exact ⟨digits, rfl, htail.symm⟩

theorem LenientPlaces.point_notMem_text (p : LenientPlaces) : '.' ∉ p.text := by
  intro hmem
  rcases List.mem_append.mp hmem with hread | hrest
  · rcases List.mem_append.mp hread with hplus | hdigit
    · exact point_notMem_plusSign hplus
    · exact point_notMem_digits p.digits_isDigit hdigit
  · exact p.point_notMem hrest

theorem parse_places_iff {fraction : List Char} {units : Nat} :
    '.' ∉ fraction ∧ parseU64 (zeroExtend 6 (fraction.take 6)) = some units ↔
      ∃ p : LenientPlaces, p.text = fraction ∧ p.units = units := by
  constructor
  · rintro ⟨hpoint, hparse⟩
    obtain ⟨plus, padded, htext, -, hpadded, rfl, -⟩ := parseU64_eq_some_iff.mp hparse
    obtain ⟨digits, hkept, hzeros⟩ := exists_digits_of_append htext
    have hdigits : ∀ c ∈ digits, c.isDigit := by
      intro c hc
      refine hpadded c ?_
      rw [← hzeros]
      exact List.mem_append_left _ hc
    have hlen : (plusSign plus ++ digits).length = min 6 fraction.length := by
      rw [hkept, List.length_take]
    let p : LenientPlaces :=
      { plus
        digits
        rest := fraction.drop 6
        digits_isDigit := hdigits
        read_le := by omega
        rest_eq_nil := fun hshort => List.drop_eq_nil_of_le (by omega)
        point_notMem := fun hmem => hpoint (List.mem_of_mem_drop hmem) }
    refine ⟨p, ?_, ?_⟩
    · have hread : p.read = fraction.take 6 := hkept
      rw [LenientPlaces.text, hread]
      exact List.take_append_drop 6 fraction
    · rw [← hkept, zeroExtend_signed hdigits] at htext
      rw [List.append_cancel_left htext]
      rfl
  · rintro ⟨p, rfl, rfl⟩
    exact ⟨p.point_notMem_text, p.parse⟩

theorem scaledUnits_eq_some_iff {whole fraction : List Char} {units : Nat} :
    scaledUnits whole fraction = some units ↔
      ∃ wholeUnits placesUnits, parseU64 whole = some wholeUnits ∧
        parseU64 (zeroExtend 6 (fraction.take 6)) = some placesUnits ∧
        wholeUnits * hotValueScale + placesUnits = units ∧ units < wordSize := by
  simp only [scaledUnits, Option.bind_eq_some_iff, checkedMul, checkedAdd]
  constructor
  · rintro ⟨wholeUnits, hwhole, placesUnits, hplaces, scaled, hscaled, hsum⟩
    split_ifs at hscaled hsum with hmul hadd
    obtain rfl := Option.some.inj hscaled
    obtain rfl := Option.some.inj hsum
    exact ⟨wholeUnits, placesUnits, hwhole, hplaces, rfl, hadd⟩
  · rintro ⟨wholeUnits, placesUnits, hwhole, hplaces, rfl, hfits⟩
    refine ⟨wholeUnits, hwhole, placesUnits, hplaces, wholeUnits * hotValueScale, ?_, ?_⟩
    · rw [if_pos (by omega)]
    · rw [if_pos hfits]

namespace LenientText

variable (t : LenientText)

def text : List Char := pointed (plusSign t.plus ++ t.whole) (t.fraction.map LenientPlaces.text)

def placesUnits : Nat := (t.fraction.map LenientPlaces.units).getD 0

def units : Nat := Nat.ofDigitChars 10 t.whole 0 * hotValueScale + t.placesUnits

theorem point_notMem_whole : '.' ∉ plusSign t.plus ++ t.whole := by
  intro hmem
  rcases List.mem_append.mp hmem with hplus | hdigit
  · exact point_notMem_plusSign hplus
  · exact point_notMem_digits t.whole_isDigit hdigit

theorem head?_text : t.text ≠ [] ∧ t.text.head? ≠ some '-' := by
  obtain ⟨c, rest, hwhole⟩ := List.exists_cons_of_ne_nil t.whole_ne_nil
  have hc := t.whole_isDigit c (by simp [hwhole])
  have hdash : c ≠ '-' := by
    rintro rfl
    exact absurd hc (by decide)
  simp only [text, hwhole]
  cases t.fraction <;> cases t.plus <;> simp [pointed, plusSign, hdash]

end LenientText

theorem scaledParts_pointed {whole : List Char} {fraction : Option (List Char)}
    (hwhole : '.' ∉ whole) :
    scaledParts ((pointed whole fraction).splitOn '.') =
      if '.' ∈ fraction.getD [] then none else scaledUnits whole (fraction.getD []) := by
  rcases fraction with _ | fraction
  · rw [pointed, List.splitOn_eq_singleton hwhole]
    rfl
  · rw [pointed, List.splitOn_append_cons_self_of_not_mem hwhole, Option.getD_some]
    by_cases hpoint : '.' ∈ fraction
    · obtain ⟨left, right, rfl, hleft⟩ := List.eq_append_cons_of_mem hpoint
      obtain ⟨part, parts, hparts⟩ := List.exists_cons_of_ne_nil (List.splitOn_ne_nil '.' right)
      rw [if_pos hpoint, List.splitOn_append_cons_self_of_not_mem hleft, hparts]
      rfl
    · rw [if_neg hpoint, List.splitOn_eq_singleton hpoint]
      rfl

theorem exists_pointed (text : List Char) :
    ∃ whole fraction, '.' ∉ whole ∧ pointed whole fraction = text := by
  by_cases hpoint : '.' ∈ text
  · obtain ⟨whole, fraction, rfl, hwhole⟩ := List.eq_append_cons_of_mem hpoint
    exact ⟨whole, some fraction, hwhole, rfl⟩
  · exact ⟨text, none, hpoint, rfl⟩

theorem parse_no_places : parseU64 (zeroExtend 6 ([].take 6)) = some 0 := by decide +kernel

theorem read_fraction_iff {fraction : Option (List Char)} {units : Nat} :
    '.' ∉ fraction.getD [] ∧ parseU64 (zeroExtend 6 ((fraction.getD []).take 6)) = some units ↔
      ∃ places : Option LenientPlaces, places.map LenientPlaces.text = fraction ∧
        (places.map LenientPlaces.units).getD 0 = units := by
  rcases fraction with _ | fraction
  · simp only [Option.getD_none, parse_no_places, Option.some.injEq]
    constructor
    · rintro ⟨-, rfl⟩
      exact ⟨none, rfl, rfl⟩
    · rintro ⟨places, hnone, rfl⟩
      rw [Option.map_eq_none_iff] at hnone
      rw [hnone]
      exact ⟨by simp, rfl⟩
  · rw [Option.getD_some, parse_places_iff]
    constructor
    · rintro ⟨p, rfl, rfl⟩
      exact ⟨some p, rfl, rfl⟩
    · rintro ⟨places, hsome, rfl⟩
      obtain ⟨p, rfl, htext⟩ := Option.map_eq_some_iff.mp hsome
      exact ⟨p, htext, rfl⟩

/-- The hot state reads exactly the lenient texts whose units fit the word. -/
theorem parseScaled_eq_some_iff {value : String} {units : Nat} :
    parseScaled value = some units ↔
      ∃ t : LenientText, t.text = trim value.toList ∧ t.units = units ∧ units < wordSize := by
  rw [parseScaled]
  constructor
  · intro h
    split_ifs at h with hstart
    obtain ⟨whole, fraction, hwhole, htext⟩ := exists_pointed (trim value.toList)
    rw [← htext, scaledParts_pointed hwhole] at h
    split_ifs at h with hpoint
    obtain ⟨wholeUnits, placesUnits, hparse, hplaces, hsum, hfits⟩ := scaledUnits_eq_some_iff.mp h
    obtain ⟨plus, digits, rfl, hne, hdigits, rfl, -⟩ := parseU64_eq_some_iff.mp hparse
    obtain ⟨places, rfl, rfl⟩ := read_fraction_iff.mp ⟨hpoint, hplaces⟩
    let t : LenientText :=
      { plus, whole := digits, fraction := places, whole_isDigit := hdigits, whole_ne_nil := hne }
    exact ⟨t, htext, hsum, hfits⟩
  · rintro ⟨t, htext, rfl, hfits⟩
    obtain ⟨hne, hdash⟩ := t.head?_text
    obtain ⟨hpoint, hplaces⟩ := read_fraction_iff.mpr ⟨t.fraction, rfl, rfl⟩
    have hwhole : parseU64 (plusSign t.plus ++ t.whole) =
        some (Nat.ofDigitChars 10 t.whole 0) := by
      refine parseU64_eq_some_iff.mpr ⟨t.plus, _, rfl, t.whole_ne_nil, t.whole_isDigit, rfl, ?_⟩
      refine lt_of_le_of_lt ?_ hfits
      rw [LenientText.units]
      exact Nat.le_add_right_of_le (Nat.le_mul_of_pos_right _ (by decide))
    rw [← htext]
    simp only [hne, hdash, or_self, if_false]
    rw [LenientText.text, scaledParts_pointed t.point_notMem_whole, if_neg hpoint]
    exact scaledUnits_eq_some_iff.mpr ⟨_, _, hwhole, hplaces, rfl, hfits⟩

/-- Only digits and a point, as the grammar has them. -/
def LenientText.IsPlain (t : LenientText) : Prop :=
  t.plus = false ∧ ∀ p ∈ t.fraction, p.plus = false ∧ ∀ c ∈ p.rest, c.isDigit

/-- The text is one or more digits and, after an optional point, any number of
digits, for so many whole millionths. -/
def IsDecimal (text : List Char) (units : Nat) : Prop :=
  ∃ d : Numeral, d.whole ≠ [] ∧ d.text = text ∧ ⌊d.value * 10 ^ 6⌋₊ = units

theorem ofDigitChars_take_six (digits : List Char) (hdigits : ∀ c ∈ digits, c.isDigit) :
    Nat.ofDigitChars 10
        (digits.take 6 ++ List.replicate (6 - (digits.take 6).length) '0') 0 =
      Nat.ofDigitChars 10 digits 0 * 10 ^ 6 / 10 ^ digits.length := by
  rw [Nat.ofDigitChars_append, Nat.ofDigitChars_replicate_zero, List.length_take]
  by_cases hlen : digits.length ≤ 6
  · have hpow : 10 ^ 6 = 10 ^ (6 - digits.length) * 10 ^ digits.length := by
      rw [← pow_add, Nat.sub_add_cancel hlen]
    rw [List.take_of_length_le hlen, Nat.min_eq_right hlen, hpow, ← Nat.mul_assoc,
      Nat.mul_div_cancel _ (pow_pos (by omega) _), Nat.mul_comm]
  · have hpow : 10 ^ digits.length = 10 ^ (digits.drop 6).length * 10 ^ 6 := by
      rw [List.length_drop, ← pow_add, Nat.sub_add_cancel (by omega)]
    have hrest : Nat.ofDigitChars 10 (digits.drop 6) 0 < 10 ^ (digits.drop 6).length :=
      ofDigitChars_lt fun c hc => hdigits c (List.mem_of_mem_drop hc)
    have hsplit : Nat.ofDigitChars 10 digits 0 =
        10 ^ (digits.drop 6).length * Nat.ofDigitChars 10 (digits.take 6) 0 +
          Nat.ofDigitChars 10 (digits.drop 6) 0 := by
      conv_lhs => rw [← List.take_append_drop 6 digits]
      rw [Nat.ofDigitChars_append, Nat.ofDigitChars_eq_ofDigitChars_zero]
    rw [Nat.min_eq_left (by omega), hpow, Nat.mul_div_mul_right _ _ (by decide), hsplit,
      Nat.mul_add_div (pow_pos (by omega) _), Nat.div_eq_of_lt hrest]
    simp

theorem LenientPlaces.units_of_plain {p : LenientPlaces} (hplus : p.plus = false)
    (hrest : ∀ c ∈ p.rest, c.isDigit) :
    p.units = Nat.ofDigitChars 10 p.text 0 * 10 ^ 6 / 10 ^ p.text.length := by
  have hread : p.digits = p.text.take 6 := by
    rw [p.take_text, LenientPlaces.read, hplus]
    rfl
  have htext : ∀ c ∈ p.text, c.isDigit := by
    rw [LenientPlaces.text, LenientPlaces.read, hplus]
    exact List.forall_mem_append.mpr ⟨p.digits_isDigit, hrest⟩
  rw [← ofDigitChars_take_six p.text htext, LenientPlaces.units, ← hread, ← p.take_text, ← hread]

theorem floor_value (d : Numeral) : ⌊d.value * 10 ^ 6⌋₊ =
    Nat.ofDigitChars 10 d.whole 0 * 10 ^ 6 +
      Nat.ofDigitChars 10 d.places 0 * 10 ^ 6 / 10 ^ d.places.length := by
  have hvalue : d.value * 10 ^ 6 =
      ((Nat.ofDigitChars 10 d.places 0 * 10 ^ 6 : Nat) : ℚ) / (10 ^ d.places.length : Nat) +
        (Nat.ofDigitChars 10 d.whole 0 * 10 ^ 6 : Nat) := by
    rw [Numeral.value]
    push_cast
    ring
  rw [hvalue, Nat.floor_add_natCast (by positivity), Nat.floor_div_eq_div, Nat.add_comm]

theorem floor_value_of_places {d : Numeral} (hplaces : d.places.length ≤ 6) :
    ⌊d.value * 10 ^ 6⌋₊ = d.scaled 6 := by
  rw [← d.scaled_eq_value_mul hplaces, Nat.floor_natCast]

theorem mem_pointed {whole : List Char} {fraction : Option (List Char)} {c : Char} :
    c ∈ pointed whole fraction ↔ c ∈ whole ∨ ∃ digits ∈ fraction, c = '.' ∨ c ∈ digits := by
  cases fraction <;> simp [pointed]

theorem isDigit_or_point (d : Numeral) {c : Char} (hc : c ∈ d.text) : c.isDigit ∨ c = '.' := by
  have hmem : c ∈ pointed d.whole d.fraction := hc
  rcases mem_pointed.mp hmem with hwhole | ⟨digits, hsome, rfl | hdigit⟩
  · exact Or.inl (d.whole_digits c hwhole)
  · exact Or.inr rfl
  · refine Or.inl (d.fraction_digits c ?_)
    rwa [Option.mem_def.mp hsome]

theorem trim_text (d : Numeral) : trim d.text = d.text := by
  apply trim_eq_self
  intro c hc
  rcases isDigit_or_point d hc with hdigit | rfl
  · exact isWhitespace_of_isDigit hdigit
  · decide

namespace LenientText

theorem isDecimal_of_isPlain {t : LenientText} (hplain : t.IsPlain) :
    IsDecimal t.text t.units := by
  obtain ⟨hplus, hfraction⟩ := hplain
  let d : Numeral :=
    { whole := t.whole
      fraction := t.fraction.map LenientPlaces.text
      whole_digits := t.whole_isDigit
      fraction_digits := by
        rcases hsome : t.fraction with _ | p
        · simp
        · obtain ⟨hsign, hrest⟩ := hfraction p hsome
          rw [Option.map_some, Option.getD_some, LenientPlaces.text, LenientPlaces.read, hsign]
          exact List.forall_mem_append.mpr ⟨p.digits_isDigit, hrest⟩
      digits_ne_nil := by simp [t.whole_ne_nil] }
  refine ⟨d, t.whole_ne_nil, ?_, ?_⟩
  · rw [text, hplus]
    rfl
  · have hplaces : Nat.ofDigitChars 10 d.places 0 * 10 ^ 6 / 10 ^ d.places.length =
        t.placesUnits := by
      rw [placesUnits]
      change Nat.ofDigitChars 10 ((t.fraction.map LenientPlaces.text).getD []) 0 * 10 ^ 6 /
        10 ^ ((t.fraction.map LenientPlaces.text).getD []).length = _
      rcases hsome : t.fraction with _ | p
      · simp
      · obtain ⟨hsign, hrest⟩ := hfraction p hsome
        exact (LenientPlaces.units_of_plain hsign hrest).symm
    rw [floor_value, hplaces]
    rfl

theorem isPlain_of_text_eq {t : LenientText} {d : Numeral} (htext : t.text = d.text) :
    t.IsPlain := by
  have hmem : ∀ c ∈ t.text, c.isDigit ∨ c = '.' := by
    rw [htext]
    exact fun c hc => isDigit_or_point d hc
  have hnot : '+' ∉ t.text := fun hplus => absurd (hmem '+' hplus) (by decide)
  constructor
  · by_contra hplus
    rw [Bool.not_eq_false] at hplus
    apply hnot
    rw [text, hplus]
    exact mem_pointed.mpr (Or.inl (by simp [plusSign]))
  · intro p hp
    have hsub : ∀ c ∈ p.text, c ∈ t.text := by
      intro c hc
      refine mem_pointed.mpr (Or.inr ⟨p.text, ?_, Or.inr hc⟩)
      rw [Option.mem_def.mp hp]
      rfl
    constructor
    · by_contra hplus
      rw [Bool.not_eq_false] at hplus
      apply hnot
      apply hsub
      rw [LenientPlaces.text, LenientPlaces.read, hplus]
      simp [plusSign]
    · intro c hc
      rcases hmem c (hsub c (List.mem_append_right _ hc)) with hdigit | hpoint
      · exact hdigit
      · exact absurd (hpoint ▸ hc) p.point_notMem

end LenientText

theorem IsDecimal.unique {text : List Char} {u v : Nat} (hu : IsDecimal text u)
    (hv : IsDecimal text v) : u = v := by
  obtain ⟨d, -, rfl, rfl⟩ := hu
  obtain ⟨e, -, htext, rfl⟩ := hv
  have hrender : e.render = d.render := congrArg String.ofList htext
  have hvalue : d.value = e.value :=
    Denotes.unique ⟨d, rfl, rfl⟩ ⟨e, hrender, rfl⟩
  rw [hvalue]

/-- The places of a decimal: six digits are read, the others dropped. -/
def LenientPlaces.ofDigits (digits : List Char) (hdigits : ∀ c ∈ digits, c.isDigit) :
    LenientPlaces where
  plus := false
  digits := digits.take 6
  rest := digits.drop 6
  digits_isDigit := fun c hc => hdigits c (List.mem_of_mem_take hc)
  read_le := List.length_take_le 6 digits
  rest_eq_nil := by
    intro hshort
    have hlen : (digits.take 6).length < 6 := hshort
    rw [List.length_take] at hlen
    exact List.drop_eq_nil_of_le (by omega)
  point_notMem := fun hmem => point_notMem_digits hdigits (List.mem_of_mem_drop hmem)

theorem exists_plain_of_isDecimal {text : List Char} {units : Nat} (h : IsDecimal text units) :
    ∃ t : LenientText, t.IsPlain ∧ t.text = text ∧ t.units = units := by
  obtain ⟨d, hwhole, htext, -⟩ := id h
  have hread : ∃ t : LenientText, t.text = d.text := by
    rcases hsome : d.fraction with _ | digits
    · let t : LenientText :=
        { plus := false, whole := d.whole, fraction := none
          whole_isDigit := d.whole_digits, whole_ne_nil := hwhole }
      refine ⟨t, ?_⟩
      rw [Numeral.text, hsome]
      rfl
    · have hdigits : ∀ c ∈ digits, c.isDigit := by
        have hplaces := d.fraction_digits
        rwa [hsome] at hplaces
      let t : LenientText :=
        { plus := false, whole := d.whole
          fraction := some (LenientPlaces.ofDigits digits hdigits)
          whole_isDigit := d.whole_digits, whole_ne_nil := hwhole }
      refine ⟨t, ?_⟩
      have hplaces : (LenientPlaces.ofDigits digits hdigits).text = digits :=
        List.take_append_drop 6 digits
      rw [Numeral.text, hsome, LenientText.text]
      change pointed d.whole (some (LenientPlaces.ofDigits digits hdigits).text) = _
      rw [hplaces]
      rfl
  obtain ⟨t, hsame⟩ := hread
  have hplain : t.IsPlain := LenientText.isPlain_of_text_eq hsame
  have hdecimal : IsDecimal text t.units := by
    rw [← htext, ← hsame]
    exact LenientText.isDecimal_of_isPlain hplain
  exact ⟨t, hplain, hsame.trans htext, hdecimal.unique h⟩

/-- The number is read from decimals whose units fit the word, and from no other
text. -/
def ReadsDecimals (value : String) : Prop :=
  ∀ units, parseScaled value = some units ↔
    IsDecimal (trim value.toList) units ∧ units < wordSize

theorem parseScaled_of_isDecimal {value : String} {units : Nat}
    (h : IsDecimal (trim value.toList) units) (hfits : units < wordSize) :
    parseScaled value = some units := by
  obtain ⟨t, -, htext, hunits⟩ := exists_plain_of_isDecimal h
  exact parseScaled_eq_some_iff.mpr ⟨t, htext, hunits, hfits⟩

section Render

variable {d : Numeral} (hplaces : d.places.length ≤ 6)

include hplaces

theorem parseScaled_render (hwhole : d.whole ≠ []) (hfits : d.scaled 6 < wordSize) :
    parseScaled d.render = some (d.scaled 6) := by
  apply parseScaled_of_isDecimal _ hfits
  rw [Numeral.render, String.toList_ofList, trim_text]
  exact ⟨d, hwhole, rfl, floor_value_of_places hplaces⟩

theorem eq_scaled_of_parseScaled_render {units : Nat} (h : parseScaled d.render = some units) :
    units = d.scaled 6 := by
  obtain ⟨t, htext, rfl, -⟩ := parseScaled_eq_some_iff.mp h
  rw [Numeral.render, String.toList_ofList, trim_text] at htext
  obtain ⟨e, -, hsame, hunits⟩ :=
    LenientText.isDecimal_of_isPlain (LenientText.isPlain_of_text_eq htext)
  have hrender : e.render = d.render := congrArg String.ofList (hsame.trans htext)
  have hvalue : e.value = d.value := Denotes.unique ⟨e, rfl, rfl⟩ ⟨d, hrender.symm, rfl⟩
  rw [← hunits, hvalue]
  exact floor_value_of_places hplaces

end Render

/-- The accepted language is the decimal grammar but for plus signs and for what
stands after the sixth character of the fraction. -/
theorem reads_decimals_iff (value : String) :
    ReadsDecimals value ↔
      ∀ t : LenientText, t.text = trim value.toList → t.units < wordSize → t.IsPlain := by
  constructor
  · intro h t htext hfits
    have hparse : parseScaled value = some t.units :=
      parseScaled_eq_some_iff.mpr ⟨t, htext, rfl, hfits⟩
    obtain ⟨d, -, hsame, -⟩ := ((h t.units).mp hparse).1
    exact LenientText.isPlain_of_text_eq (htext.trans hsame.symm)
  · intro h units
    constructor
    · intro hparse
      obtain ⟨t, htext, rfl, hfits⟩ := parseScaled_eq_some_iff.mp hparse
      have hdecimal := LenientText.isDecimal_of_isPlain (h t htext hfits)
      rw [htext] at hdecimal
      exact ⟨hdecimal, hfits⟩
    · rintro ⟨hdecimal, hfits⟩
      exact parseScaled_of_isDecimal hdecimal hfits

theorem junk_is_read : ¬ ReadsDecimals "0.123456abc" := by
  intro h
  have hparse : parseScaled "0.123456abc" = some 123456 := by decide +kernel
  obtain ⟨d, -, htext, -⟩ := ((h 123456).mp hparse).1
  have hmem : 'a' ∈ trim "0.123456abc".toList := by decide +kernel
  rw [← htext] at hmem
  exact absurd (isDigit_or_point d hmem) (by decide)

end Rtt.ScaledText
