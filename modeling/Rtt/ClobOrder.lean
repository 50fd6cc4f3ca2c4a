import Rtt.ClobExecutor
import Rtt.Decimal

namespace Rtt.ClobOrder

open Rtt.Quote
open Rtt.Decimal
open Rtt.ClobExecutor

def usdcDecimals : Nat := 6

/-- Base units of a dollar or a share. -/
def baseUnitScale : Nat := 10 ^ usdcDecimals

inductive ClobSide where
  | buy
  | sell
  deriving DecidableEq, Repr

namespace ClobSide

def ofSide : Side → ClobSide
  | .buy => .buy
  | .sell => .sell

/-- The number that stands for the side on chain. -/
def toNat : ClobSide → Nat
  | .buy => 0
  | .sell => 1

end ClobSide

inductive SignatureType where
  | eoa
  | poly
  | gnosisSafe
  deriving DecidableEq, Repr

def SignatureType.toNat : SignatureType → Nat
  | .eoa => 0
  | .poly => 1
  | .gnosisSafe => 2

/-- The order that is signed, with amounts in base units. -/
structure Order (Address : Type) where
  salt : Nat
  maker : Address
  signer : Address
  taker : Address
  tokenId : Nat
  makerAmount : Nat
  takerAmount : Nat
  expiration : Nat
  nonce : Nat
  feeRateBps : Nat
  side : Nat
  signatureType : Nat
  deriving DecidableEq, Repr

/-- The range of the 128-bit products. -/
def amountSize : Nat := 2 ^ 128

/-- `u128::checked_mul`. -/
def checkedMulU128 (a b : Nat) : Option Nat := if a * b < amountSize then some (a * b) else none

def checkedAddU128 (a b : Nat) : Option Nat := if a + b < amountSize then some (a + b) else none

def checkedDivU128 (a b : Nat) : Option Nat := if b = 0 then none else some (a / b)

/-- An amount, or the overflow error that names the field. -/
def orOverflow (field value : String) : Option Nat → Except AmountError Nat
  | some amount => .ok amount
  | none => .error (.overflow field value)

/-- What the loop of `parse_scaled_decimal` has read so far. -/
structure DigitScan where
  whole : Nat
  fractional : Nat
  fractionalDigits : Nat
  sawDot : Bool
  sawDigit : Bool
  deriving DecidableEq, Repr

def DigitScan.start : DigitScan :=
  { whole := 0, fractional := 0, fractionalDigits := 0, sawDot := false, sawDigit := false }

/-- One more decimal digit on a running total. -/
def pushDigit (total digit : Nat) : Option Nat :=
  (checkedMulU128 total 10).bind fun scaled => checkedAddU128 scaled digit

/-- One turn of the digit loop.  A character outside ASCII is refused at its
first byte, like any other byte that is neither a digit nor the point. -/
def scanByte (value field : String) (scan : DigitScan) (byte : Char) :
    Except AmountError DigitScan :=
  if byte.isDigit then
    let digit := byte.toNat - '0'.toNat
    if scan.sawDot then
      if scan.fractionalDigits ≥ usdcDecimals then
        .error (.unsupportedPrecision field value usdcDecimals)
      else do
        let fractional ← orOverflow field value (pushDigit scan.fractional digit)
        .ok
          { scan with
            fractional
            fractionalDigits := scan.fractionalDigits + 1
            sawDigit := true }
    else do
      let whole ← orOverflow field value (pushDigit scan.whole digit)
      .ok { scan with whole, sawDigit := true }
  else if byte = '.' ∧ scan.sawDot = false then .ok { scan with sawDot := true }
  else .error (.invalidFormat field value)

/-- The loop of `parse_scaled_decimal` over all characters. -/
def scanBytes (value field : String) (bytes : List Char) : Except AmountError DigitScan :=
  bytes.foldlM (scanByte value field) DigitScan.start

/-- The base units of what the loop has read. -/
def scaleScan (value field : String) (scan : DigitScan) : Except AmountError Nat := do
  let scaledWhole ← orOverflow field value (checkedMulU128 scan.whole baseUnitScale)
  let fractionalScale := 10 ^ (usdcDecimals - scan.fractionalDigits)
  let scaledFractional ← orOverflow field value (checkedMulU128 scan.fractional fractionalScale)
  orOverflow field value (checkedAddU128 scaledWhole scaledFractional)

/-- A decimal text in base units; texts with more than six decimals are refused. -/
def parseScaledDecimal (value field : String) : Except AmountError Nat :=
  if value = "" then .error (.invalidFormat field value)
  else do
    let scan ← scanBytes value field value.toList
    if scan.sawDigit = false then .error (.invalidFormat field value)
    else scaleScan value field scan

/-- The maker amount and the taker amount, both in base units. -/
def computeAmounts (price size : String) (side : ClobSide) : Except AmountError (Nat × Nat) := do
  let priceScaled ← parseScaledDecimal price "price"
  let tokenAmount ← parseScaledDecimal size "size"
  let usdcAmount ← orOverflow "makerAmount" ("price=" ++ price ++ " size=" ++ size)
    ((checkedMulU128 priceScaled tokenAmount).bind fun value =>
      checkedDivU128 value baseUnitScale)
  match side with
  | .buy => return (usdcAmount, tokenAmount)
  | .sell => return (tokenAmount, usdcAmount)

/-- The order for a trigger.  `parseTokenId` is the decimal parser of 256-bit
words and `salt` the random salt of this order. -/
def buildOrder {Address : Type} (zero : Address) (parseTokenId : String → Option Nat)
    (salt : Nat) (trigger : TriggerMessage) (maker signerAddr : Address) (feeRateBps : Nat)
    (signatureType : SignatureType) : Except BuildOrderError (Order Address) :=
  let clobSide := ClobSide.ofSide trigger.side
  match computeAmounts trigger.price trigger.size clobSide with
  | .error error => .error (.amount error)
  | .ok (makerAmount, takerAmount) =>
      match parseTokenId trigger.tokenId with
      | none => .error (.invalidTokenId trigger.tokenId)
      | some tokenId =>
          .ok
            { salt
              maker
              signer := signerAddr
              taker := zero
              tokenId
              makerAmount
              takerAmount
              expiration := 0
              nonce := 0
              feeRateBps
              side := clobSide.toNat
              signatureType := signatureType.toNat }

/-- What the loop knows after reading digits and, after a point, digits. -/
def scanOf (whole : List Char) (fraction : Option (List Char)) : DigitScan :=
  { whole := Nat.ofDigitChars 10 whole 0
    fractional := Nat.ofDigitChars 10 (fraction.getD []) 0
    fractionalDigits := (fraction.getD []).length
    sawDot := fraction.isSome
    sawDigit := !(whole ++ fraction.getD []).isEmpty }

theorem pushDigit_ofDigitChars (digits : List Char) (c : Char) :
    pushDigit (Nat.ofDigitChars 10 digits 0) (c.toNat - '0'.toNat) =
      if Nat.ofDigitChars 10 (digits ++ [c]) 0 < amountSize then
        some (Nat.ofDigitChars 10 (digits ++ [c]) 0)
      else none := by
  rw [ofDigitChars_concat, pushDigit, checkedMulU128]
  by_cases hmul : Nat.ofDigitChars 10 digits 0 * 10 < amountSize
  · rw [if_pos hmul, Option.bind_some, checkedAddU128]
  · rw [if_neg hmul, Option.bind_none, if_neg (by omega)]

/-- The loop takes a text of these digits. -/
structure Readable (whole : List Char) (fraction : Option (List Char)) : Prop where
  whole_digits : ∀ c ∈ whole, c.isDigit
  fraction_digits : ∀ c ∈ fraction.getD [], c.isDigit
  fits : Nat.ofDigitChars 10 whole 0 < amountSize
  places : (fraction.getD []).length ≤ usdcDecimals

theorem Readable.init {whole : List Char} {c : Char} (h : Readable (whole ++ [c]) none) :
    Readable whole none where
  whole_digits := fun c hc => h.whole_digits c (by simp [hc])
  fraction_digits := h.fraction_digits
  fits := by
    have hfits := h.fits
    rw [ofDigitChars_concat] at hfits
    omega
  places := h.places

theorem Readable.fractionInit {whole digits : List Char} {c : Char}
    (h : Readable whole (some (digits ++ [c]))) : Readable whole (some digits) where
  whole_digits := h.whole_digits
  fraction_digits := fun c hc => h.fraction_digits c (by
    simp only [Option.getD_some] at hc ⊢
    simp [hc])
  fits := h.fits
  places := by
    have hplaces := h.places
    simp only [Option.getD_some, List.length_append, List.length_singleton] at hplaces ⊢
    omega

section

variable (value field : String)

theorem scanByte_whole {c : Char} (hc : c.isDigit) (whole : List Char) :
    scanByte value field (scanOf whole none) c =
      if Nat.ofDigitChars 10 (whole ++ [c]) 0 < amountSize then .ok (scanOf (whole ++ [c]) none)
      else .error (.overflow field value) := by
  have hdot : (scanOf whole none).sawDot = false := rfl
  have hpush : pushDigit (scanOf whole none).whole (c.toNat - '0'.toNat) = _ :=
    pushDigit_ofDigitChars whole c
  rw [scanByte, if_pos hc, if_neg (by simp [hdot]), hpush]
  split_ifs
  · simp [orOverflow, bind, Except.bind, scanOf]
  · rfl

theorem scanByte_fraction {c : Char} (hc : c.isDigit) (whole : List Char) {digits : List Char}
    (hdigits : ∀ c ∈ digits, c.isDigit) :
    scanByte value field (scanOf whole (some digits)) c =
      if digits.length < usdcDecimals then .ok (scanOf whole (some (digits ++ [c])))
      else .error (.unsupportedPrecision field value usdcDecimals) := by
  have hdot : (scanOf whole (some digits)).sawDot = true := rfl
  have hcount : (scanOf whole (some digits)).fractionalDigits = digits.length := rfl
  have hpush : pushDigit (scanOf whole (some digits)).fractional (c.toNat - '0'.toNat) = _ :=
    pushDigit_ofDigitChars digits c
  by_cases hplaces : digits.length < usdcDecimals
  · have hall : ∀ d ∈ digits ++ [c], d.isDigit := by
      intro d hd
      rcases List.mem_append.mp hd with hd | hd
      · exact hdigits d hd
      · rw [List.mem_singleton.mp hd]
        exact hc
    -- six places are far below the 128 bits
    have hfits : Nat.ofDigitChars 10 (digits ++ [c]) 0 < amountSize := by
      refine (ofDigitChars_lt hall).trans_le ?_
      rw [List.length_append, List.length_singleton]
      refine (Nat.pow_le_pow_right (by omega) (Nat.succ_le_of_lt hplaces)).trans ?_
      decide
    rw [scanByte, if_pos hc, if_pos hdot, if_neg (by omega), if_pos hplaces, hpush, if_pos hfits]
    simp [orOverflow, bind, Except.bind, scanOf]
  · rw [scanByte, if_pos hc, if_pos hdot, if_pos (by omega), if_neg hplaces]

theorem scanByte_point (whole : List Char) :
    scanByte value field (scanOf whole none) '.' = .ok (scanOf whole (some [])) := by
  rfl

theorem scanByte_ok_of_not_isDigit {c : Char} (hc : ¬ c.isDigit) {scan scan' : DigitScan}
    (hok : scanByte value field scan c = .ok scan') :
    c = '.' ∧ scan.sawDot = false ∧ { scan with sawDot := true } = scan' := by
  rw [scanByte, if_neg hc] at hok
  split_ifs at hok with hpoint
  exact ⟨hpoint.1, hpoint.2, Except.ok.inj hok⟩

theorem scanBytes_concat (bytes : List Char) (c : Char) :
    scanBytes value field (bytes ++ [c]) =
      scanBytes value field bytes >>= fun scan => scanByte value field scan c := by
  simp only [scanBytes, List.foldlM_append, List.foldlM_cons, List.foldlM_nil, bind_pure]

theorem scanBytes_whole {whole : List Char} (h : Readable whole none) :
    scanBytes value field whole = .ok (scanOf whole none) := by
  induction whole using List.reverseRecOn with
  | nil => rfl
  | append_singleton whole c ih =>
      have hc := h.whole_digits c (by simp)
      rw [scanBytes_concat, ih h.init]
      exact (scanByte_whole value field hc whole).trans (if_pos h.fits)

theorem scanBytes_pointed {whole : List Char} {fraction : Option (List Char)}
    (h : Readable whole fraction) :
    scanBytes value field (pointed whole fraction) = .ok (scanOf whole fraction) := by
  rcases fraction with _ | digits
  · exact scanBytes_whole value field h
  · induction digits using List.reverseRecOn with
    | nil =>
        have hwhole : Readable whole none := ⟨h.whole_digits, by simp, h.fits, by simp⟩
        rw [pointed, scanBytes_concat, scanBytes_whole value field hwhole]
        exact scanByte_point value field whole
    | append_singleton digits c ih =>
        have hc := h.fraction_digits c (by simp)
        have hplaces := h.places
        simp only [Option.getD_some, List.length_append, List.length_singleton] at hplaces
        have hread := scanByte_fraction value field hc whole h.fractionInit.fraction_digits
        rw [pointed, ← List.cons_append, ← List.append_assoc, scanBytes_concat]
        rw [show whole ++ '.' :: digits = pointed whole (some digits) from rfl, ih h.fractionInit]
        exact hread.trans (if_pos (by simpa using hplaces))

theorem readable_of_scanBytes {bytes : List Char} {scan : DigitScan}
    (hok : scanBytes value field bytes = .ok scan) :
    ∃ whole fraction, Readable whole fraction ∧ pointed whole fraction = bytes ∧
      scanOf whole fraction = scan := by
  induction bytes using List.reverseRecOn generalizing scan with
  | nil => exact ⟨[], none, ⟨by simp, by simp, by decide, by simp⟩, rfl, Except.ok.inj hok⟩
  | append_singleton bytes c ih =>
      rw [scanBytes_concat] at hok
      cases hread : scanBytes value field bytes with
      | error error =>
          rw [hread] at hok
          cases hok
      | ok before =>
          obtain ⟨whole, fraction, h, rfl, rfl⟩ := ih hread
          have hstep : scanByte value field (scanOf whole fraction) c = .ok scan := by
            rwa [hread] at hok
          by_cases hc : c.isDigit
          · have hone : ∀ d ∈ [c], d.isDigit := by simpa using hc
            rcases fraction with _ | digits
            · rw [scanByte_whole value field hc] at hstep
              split_ifs at hstep with hfits
              refine ⟨whole ++ [c], none, ?_, rfl, Except.ok.inj hstep⟩
              exact ⟨List.forall_mem_append.mpr ⟨h.whole_digits, hone⟩, by simp, hfits, by simp⟩
            · have hdigits : ∀ d ∈ digits, d.isDigit := h.fraction_digits
              rw [scanByte_fraction value field hc whole hdigits] at hstep
              split_ifs at hstep with hplaces
              refine ⟨whole, some (digits ++ [c]), ?_, by simp [pointed], Except.ok.inj hstep⟩
              refine ⟨h.whole_digits, ?_, h.fits, by simpa using hplaces⟩
              exact List.forall_mem_append.mpr ⟨h.fraction_digits, hone⟩
          · obtain ⟨rfl, hdot, rfl⟩ := scanByte_ok_of_not_isDigit value field hc hstep
            rcases fraction with _ | digits
            · exact ⟨whole, some [], ⟨h.whole_digits, by simp, h.fits, by simp⟩, rfl, rfl⟩
            · exact absurd hdot (by simp [scanOf])

theorem orOverflow_checkedMulU128 (a b : Nat) :
    orOverflow field value (checkedMulU128 a b) =
      if a * b < amountSize then .ok (a * b) else .error (.overflow field value) := by
  rw [checkedMulU128]
  split_ifs <;> rfl

theorem orOverflow_checkedAddU128 (a b : Nat) :
    orOverflow field value (checkedAddU128 a b) =
      if a + b < amountSize then .ok (a + b) else .error (.overflow field value) := by
  rw [checkedAddU128]
  split_ifs <;> rfl

theorem scaleScan_eq (scan : DigitScan) {units : Nat}
    (hplaces : scan.fractional * 10 ^ (usdcDecimals - scan.fractionalDigits) < amountSize)
    (hunits : scan.whole * baseUnitScale +
      scan.fractional * 10 ^ (usdcDecimals - scan.fractionalDigits) = units) :
    scaleScan value field scan =
      if units < amountSize then .ok units else .error (.overflow field value) := by
  have hfractional := (orOverflow_checkedMulU128 value field scan.fractional
    (10 ^ (usdcDecimals - scan.fractionalDigits))).trans (if_pos hplaces)
  have hsum := orOverflow_checkedAddU128 value field (scan.whole * baseUnitScale)
    (scan.fractional * 10 ^ (usdcDecimals - scan.fractionalDigits))
  rw [hunits] at hsum
  rw [scaleScan, orOverflow_checkedMulU128]
  by_cases hwhole : scan.whole * baseUnitScale < amountSize
  · rw [if_pos hwhole, ← hsum]
    simp only [bind, Except.bind, hfractional]
  · rw [if_neg hwhole, if_neg (by omega)]
    rfl

theorem Readable.places_lt {whole : List Char} {fraction : Option (List Char)}
    (h : Readable whole fraction) :
    Nat.ofDigitChars 10 (fraction.getD []) 0 *
      10 ^ (usdcDecimals - (fraction.getD []).length) < amountSize := by
  have hpow : 10 ^ (fraction.getD []).length * 10 ^ (usdcDecimals - (fraction.getD []).length) =
      10 ^ usdcDecimals := by
    rw [← pow_add, Nat.add_sub_cancel' h.places]
  have hlt := Nat.mul_lt_mul_of_pos_right (ofDigitChars_lt h.fraction_digits)
    (pow_pos (by decide : 0 < 10) (usdcDecimals - (fraction.getD []).length))
  rw [hpow] at hlt
  exact hlt.trans (by decide)

theorem scaled_eq (d : Numeral) : d.scaled usdcDecimals =
    Nat.ofDigitChars 10 d.whole 0 * baseUnitScale +
      Nat.ofDigitChars 10 d.places 0 * 10 ^ (usdcDecimals - d.places.length) := by
  rw [Numeral.scaled, Nat.ofDigitChars_append, Nat.ofDigitChars_replicate_zero, baseUnitScale,
    Nat.mul_comm (10 ^ _)]

theorem render_ne_empty (d : Numeral) : d.render ≠ "" := by
  intro hempty
  have htext : pointed d.whole d.fraction = [] := by
    have htoList := congrArg String.toList hempty
    rwa [Numeral.render, String.toList_ofList] at htoList
  apply d.digits_ne_nil
  cases hfraction : d.fraction with
  | none =>
      rw [hfraction] at htext
      rw [show d.whole = [] from htext]
      rfl
  | some digits =>
      rw [hfraction, pointed] at htext
      simp at htext

theorem exists_numeral_of_parseScaledDecimal {units : Nat}
    (hok : parseScaledDecimal value field = .ok units) :
    ∃ d : Numeral, d.render = value ∧ d.places.length ≤ usdcDecimals ∧
      d.scaled usdcDecimals = units ∧ units < amountSize := by
  rw [parseScaledDecimal] at hok
  split_ifs at hok with hempty
  cases hread : scanBytes value field value.toList with
  | error error =>
      rw [hread] at hok
      cases hok
  | ok scan =>
      obtain ⟨whole, fraction, h, htext, rfl⟩ := readable_of_scanBytes value field hread
      simp only [hread, bind, Except.bind] at hok
      split_ifs at hok with hdigit
      have hne : whole ++ fraction.getD [] ≠ [] := by simpa [scanOf] using hdigit
      let d : Numeral :=
        { whole, fraction, whole_digits := h.whole_digits, fraction_digits := h.fraction_digits,
          digits_ne_nil := hne }
      have hscale : scaleScan value field (scanOf whole fraction) =
          if d.scaled usdcDecimals < amountSize then .ok (d.scaled usdcDecimals)
          else .error (.overflow field value) :=
        scaleScan_eq value field (scanOf whole fraction) h.places_lt (scaled_eq d).symm
      rw [hscale] at hok
      split_ifs at hok with hfits
      refine ⟨d, ?_, h.places, Except.ok.inj hok, Except.ok.inj hok ▸ hfits⟩
      have hrender : d.text = value.toList := htext
      rw [Numeral.render, hrender, String.ofList_toList]

theorem parseScaledDecimal_render {d : Numeral} (hplaces : d.places.length ≤ usdcDecimals)
    (hfits : d.scaled usdcDecimals < amountSize) :
    parseScaledDecimal d.render field = .ok (d.scaled usdcDecimals) := by
  have hscaled := scaled_eq d
  have hread : Readable d.whole d.fraction := by
    refine ⟨d.whole_digits, d.fraction_digits, ?_, hplaces⟩
    refine lt_of_le_of_lt ?_ hfits
    rw [hscaled]
    exact Nat.le_add_right_of_le (Nat.le_mul_of_pos_right _ (by decide))
  have hscan : scanBytes d.render field d.render.toList = .ok (scanOf d.whole d.fraction) := by
    rw [Numeral.render, String.toList_ofList]
    exact scanBytes_pointed _ field hread
  have hdigit : (scanOf d.whole d.fraction).sawDigit = true := by
    simpa [scanOf] using d.digits_ne_nil
  rw [parseScaledDecimal, if_neg (render_ne_empty d), hscan]
  simp only [bind, Except.bind, hdigit, Bool.true_eq_false, if_false]
  have hscale := scaleScan_eq d.render field (scanOf d.whole d.fraction) hread.places_lt
    hscaled.symm
  exact hscale.trans (if_pos hfits)

/-- The parser reads exactly the decimals of at most six places whose base
units fit. -/
theorem parseScaledDecimal_ok_iff {units : Nat} :
    parseScaledDecimal value field = .ok units ↔
      ∃ d : Numeral, d.render = value ∧ d.places.length ≤ usdcDecimals ∧
        d.scaled usdcDecimals = units ∧ units < amountSize := by
  constructor
  · exact exists_numeral_of_parseScaledDecimal value field
  · rintro ⟨d, rfl, hplaces, rfl, hfits⟩
    exact parseScaledDecimal_render field hplaces hfits

end

end Rtt.ClobOrder
