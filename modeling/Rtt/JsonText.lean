import Mathlib.Data.List.TakeWhile
import Mathlib.Data.Nat.Digits.Lemmas

/-!
Compact JSON texts of numbers, strings and objects: how a value is written, and a reader
that gets every value back from its text.
-/

namespace Rtt.JsonText

mutual

/-- The part of JSON that the requests use. -/
inductive Value where
  | number (n : Nat)
  | text (s : String)
  | object (members : Members)

/-- The members of an object in the order in which they are written. -/
inductive Members where
  | nil
  | cons (key : String) (value : Value) (rest : Members)

end

def Members.ofList : List (String × Value) → Members
  | [] => .nil
  | (key, value) :: rest => .cons key value (ofList rest)

/-- How a character stands in a quoted text. -/
def escape (c : Char) : List Char :=
  if c = '"' then ['\\', '"']
  else if c = '\\' then ['\\', '\\']
  else if c = '\n' then ['\\', 'n']
  else if c = '\r' then ['\\', 'r']
  else if c = '\t' then ['\\', 't']
  else if c.toNat = 8 then ['\\', 'b']
  else if c.toNat = 12 then ['\\', 'f']
  else if c.toNat < 32 then
    ['\\', 'u', '0', '0', Nat.digitChar (c.toNat / 16), Nat.digitChar (c.toNat % 16)]
  else [c]

def quote (s : String) : List Char := '"' :: (s.toList.flatMap escape ++ ['"'])

mutual

/-- The text of a value without any blanks. -/
def Value.render : Value → List Char
  | .number n => Nat.toDigits 10 n
  | .text s => quote s
  | .object .nil => ['{', '}']
  | .object (.cons key value rest) => '{' :: (quote key ++ ':' :: (value.render ++ rest.renderMore))

/-- The members after the first and the closing brace. -/
def Members.renderMore : Members → List Char
  | .nil => ['}']
  | .cons key value rest => ',' :: (quote key ++ ':' :: (value.render ++ rest.renderMore))

end

def hexValue (c : Char) : Nat :=
  if c.isDigit then c.toNat - '0'.toNat else c.toNat - 'a'.toNat + 10

/-- The character that a two-character escape stands for. -/
def unescape (c : Char) : Option Char :=
  if c = '"' ∨ c = '\\' then some c
  else if c = 'n' then some '\n'
  else if c = 'r' then some '\r'
  else if c = 't' then some '\t'
  else if c = 'b' then some (Char.ofNat 8)
  else if c = 'f' then some (Char.ofNat 12)
  else none

/-- The characters up to the closing quote, and what follows it. -/
def readChars : List Char → Option (List Char × List Char)
  | [] => none
  | '"' :: rest => some ([], rest)
  | '\\' :: 'u' :: '0' :: '0' :: high :: low :: rest =>
      (readChars rest).map fun read =>
        (Char.ofNat (16 * hexValue high + hexValue low) :: read.1, read.2)
  | '\\' :: c :: rest =>
      (unescape c).bind fun c => (readChars rest).map fun read => (c :: read.1, read.2)
  | c :: rest => (readChars rest).map fun read => (c :: read.1, read.2)

def readText (text : List Char) : Option (String × List Char) :=
  (readChars text).map fun read => (String.ofList read.1, read.2)

def readNumber (text : List Char) : Option (Nat × List Char) :=
  if (text.takeWhile Char.isDigit).isEmpty then none
  else some (Nat.ofDigitChars 10 (text.takeWhile Char.isDigit) 0, text.dropWhile Char.isDigit)

/-- What follows the character `c`, if the text starts with it. -/
def expect (c : Char) : List Char → Option (List Char)
  | [] => none
  | d :: rest => if d = c then some rest else none

mutual

def readValue : Nat → List Char → Option (Value × List Char)
  | 0, _ => none
  | _ + 1, '"' :: text => (readText text).map fun read => (.text read.1, read.2)
  | fuel + 1, '{' :: text => do
      match expect '}' text with
      | some rest => return (.object .nil, rest)
      | none =>
          let (members, rest) ← readMembers fuel text
          return (.object members, rest)
  | _ + 1, text => (readNumber text).map fun read => (.number read.1, read.2)

/-- One member or more, up to the closing brace. -/
def readMembers : Nat → List Char → Option (Members × List Char)
  | 0, _ => none
  | fuel + 1, text => do
      let text ← expect '"' text
      let (key, text) ← readText text
      let text ← expect ':' text
      let (value, text) ← readValue fuel text
      match expect '}' text with
      | some rest => return (.cons key value .nil, rest)
      | none =>
          let text ← expect ',' text
          let (members, rest) ← readMembers fuel text
          return (.cons key value members, rest)

end

/-- A text that is one value and nothing more. -/
def read (text : List Char) : Option Value :=
  match readValue text.length text with
  | some (value, []) => some value
  | _ => none

section Text

theorem hexValue_digitChar : ∀ n < 16, hexValue (Nat.digitChar n) = n := by
  decide

theorem readChars_escape (c : Char) (rest : List Char) :
    readChars (escape c ++ rest) =
      (readChars rest).map fun read => (c :: read.1, read.2) := by
  rw [escape]
  split_ifs with hquote hslash hnewline hreturn htab hback hfeed hcontrol
  · subst hquote
    rfl
  · subst hslash
    rfl
  · subst hnewline
    rfl
  · subst hreturn
    rfl
  · subst htab
    rfl
  · have hc : c = Char.ofNat 8 := by rw [← hback, Char.ofNat_toNat]
    subst hc
    rfl
  · have hc : c = Char.ofNat 12 := by rw [← hfeed, Char.ofNat_toNat]
    subst hc
    rfl
  · have hhigh := hexValue_digitChar (c.toNat / 16) (by omega)
    have hlow := hexValue_digitChar (c.toNat % 16) (by omega)
    have hc : Char.ofNat (16 * (c.toNat / 16) + c.toNat % 16) = c := by
      rw [Nat.div_add_mod, Char.ofNat_toNat]
    simp only [List.cons_append, List.nil_append, readChars, hhigh, hlow, hc]
  · rw [List.singleton_append, readChars.eq_def]
    split <;> simp_all

theorem readChars_quoted (chars rest : List Char) :
    readChars (chars.flatMap escape ++ '"' :: rest) = some (chars, rest) := by
  induction chars with
  | nil => rfl
  | cons c chars ih =>
      rw [List.flatMap_cons, List.append_assoc, readChars_escape, ih]
      rfl

theorem quote_append (s : String) (rest : List Char) :
    quote s ++ rest = '"' :: (s.toList.flatMap escape ++ '"' :: rest) := by
  rw [quote, List.cons_append, List.append_assoc, List.singleton_append]

theorem readText_quoted (s : String) (rest : List Char) :
    readText (s.toList.flatMap escape ++ '"' :: rest) = some (s, rest) := by
  rw [readText, readChars_quoted, Option.map_some, String.ofList_toList]

end Text

section Number

/-- Nothing that would go on with a number. -/
def NoDigitFirst (rest : List Char) : Prop := ∀ c ∈ rest.head?, c.isDigit = false

theorem noDigitFirst_nil : NoDigitFirst [] := by
  rintro _ ⟨⟩

theorem noDigitFirst_cons {c : Char} {rest : List Char} (hc : c.isDigit = false) :
    NoDigitFirst (c :: rest) := by
  rintro _ ⟨⟩
  exact hc

theorem takeWhile_isDigit_append {digits rest : List Char} (hdigits : ∀ c ∈ digits, c.isDigit)
    (hrest : NoDigitFirst rest) : (digits ++ rest).takeWhile Char.isDigit = digits := by
  rw [List.takeWhile_append_of_pos hdigits]
  cases rest with
  | nil => simp
  | cons c rest => simp [hrest c rfl]

theorem dropWhile_isDigit_append {digits rest : List Char} (hdigits : ∀ c ∈ digits, c.isDigit)
    (hrest : NoDigitFirst rest) : (digits ++ rest).dropWhile Char.isDigit = rest := by
  rw [List.dropWhile_append_of_pos hdigits]
  cases rest with
  | nil => rfl
  | cons c rest => simp [hrest c rfl]

theorem isDigit_of_mem_toDigits {n : Nat} : ∀ c ∈ Nat.toDigits 10 n, c.isDigit := by
  intro c hc
  exact Nat.isDigit_of_mem_toDigits (by decide) (by decide) hc

theorem toDigits_ne_nil (n : Nat) : Nat.toDigits 10 n ≠ [] := by
  intro hnil
  have hlength := Nat.length_toDigits_pos (b := 10) (n := n)
  rw [hnil] at hlength
  exact Nat.lt_irrefl 0 hlength

theorem readNumber_toDigits (n : Nat) {rest : List Char} (hrest : NoDigitFirst rest) :
    readNumber (Nat.toDigits 10 n ++ rest) = some (n, rest) := by
  have htake := takeWhile_isDigit_append (@isDigit_of_mem_toDigits n) hrest
  have hdrop := dropWhile_isDigit_append (@isDigit_of_mem_toDigits n) hrest
  rw [readNumber, htake, hdrop, if_neg (by simp [toDigits_ne_nil n]),
    Nat.ofDigitChars_ten_toDigits]

theorem readValue_number (n fuel : Nat) {rest : List Char} (hrest : NoDigitFirst rest) :
    readValue (fuel + 1) (Nat.toDigits 10 n ++ rest) = some (.number n, rest) := by
  have hread := readNumber_toDigits n hrest
  cases htext : Nat.toDigits 10 n with
  | nil => exact absurd htext (toDigits_ne_nil n)
  | cons c digits =>
      have hc : c.isDigit := isDigit_of_mem_toDigits c (by rw [htext]; exact List.mem_cons_self)
      rw [htext] at hread
      rw [List.cons_append, readValue]
      · rw [← List.cons_append, hread]
        rfl
      · rintro _ ⟨⟩
        exact absurd hc (by decide)
      · rintro _ ⟨⟩
        exact absurd hc (by decide)

end Number

section RoundTrip

mutual

/-- The steps it takes to read a value. -/
def Value.weight : Value → Nat
  | .number _ => 1
  | .text _ => 1
  | .object members => 1 + members.weight

/-- How deep a reader may have to go; it serves as fuel. -/
def Members.weight : Members → Nat
  | .nil => 0
  | .cons _ value rest => 1 + value.weight + rest.weight

end

theorem noDigitFirst_renderMore (members : Members) (rest : List Char) :
    NoDigitFirst (members.renderMore ++ rest) := by
  cases members with
  | nil => exact noDigitFirst_cons (by decide)
  | cons key value more => exact noDigitFirst_cons (by decide)

mutual

theorem readValue_render : ∀ (value : Value) (fuel : Nat) {rest : List Char},
    value.weight ≤ fuel → NoDigitFirst rest →
      readValue fuel (value.render ++ rest) = some (value, rest)
  | value, 0, _, hfuel, _ => by
      cases value <;> simp [Value.weight] at hfuel
  | .number n, fuel + 1, rest, _, hrest => readValue_number n fuel hrest
  | .text s, fuel + 1, rest, _, _ => by
      rw [Value.render, quote_append, readValue, readText_quoted]
      rfl
  | .object .nil, fuel + 1, rest, _, _ => by
      simp [Value.render, readValue, expect]
  | .object (.cons key value more), fuel + 1, rest, hfuel, _ => by
      have hread := readMembers_render key value more fuel rest
        (by rw [Value.weight] at hfuel; omega)
      have hopen : expect '}' (quote key ++ ':' :: (value.render ++ more.renderMore) ++ rest) =
          none := by
        rw [quote]
        rfl
      rw [Value.render, List.cons_append, readValue, hopen, hread]
      rfl

theorem readMembers_render : ∀ (key : String) (value : Value) (more : Members) (fuel : Nat)
    (rest : List Char), (Members.cons key value more).weight ≤ fuel →
      readMembers fuel (quote key ++ ':' :: (value.render ++ more.renderMore) ++ rest) =
        some (.cons key value more, rest)
  | key, value, more, 0, rest, hfuel => by
      simp [Members.weight] at hfuel
  | key, value, more, fuel + 1, rest, hfuel => by
      rw [Members.weight] at hfuel
      have hvalue := readValue_render value fuel (by omega) (noDigitFirst_renderMore more rest)
      have htext : quote key ++ ':' :: (value.render ++ more.renderMore) ++ rest =
          '"' :: (key.toList.flatMap escape ++
            '"' :: (':' :: (value.render ++ (more.renderMore ++ rest)))) := by
        rw [List.append_assoc, quote_append, List.cons_append, List.append_assoc]
      rw [htext, readMembers]
      simp only [expect, if_true, Option.bind_eq_bind, Option.bind_some, readText_quoted, hvalue]
      cases more with
      | nil => rfl
      | cons nextKey next more =>
          have hmore := readMembers_render nextKey next more fuel rest (by omega)
          rw [List.append_assoc, List.cons_append, List.append_assoc] at hmore
          simp [Members.renderMore, hmore]

end

mutual

theorem weight_le_length : ∀ value : Value, value.weight ≤ value.render.length
  | .number n => by
      rw [Value.weight, Value.render]
      exact Nat.length_toDigits_pos
  | .text s => by
      simp [Value.weight, Value.render, quote]
  | .object .nil => by
      simp [Value.weight, Members.weight, Value.render]
  | .object (.cons key value more) => by
      have hvalue := weight_le_length value
      have hmore := weight_le_length_more more
      simp only [Value.weight, Members.weight, Value.render, List.length_cons, List.length_append]
      omega

theorem weight_le_length_more : ∀ members : Members, members.weight ≤ members.renderMore.length
  | .nil => Nat.zero_le _
  | .cons key value more => by
      have hvalue := weight_le_length value
      have hmore := weight_le_length_more more
      simp only [Members.weight, Members.renderMore, List.length_cons, List.length_append]
      omega

end

theorem read_render (value : Value) : read value.render = some value := by
  have hread := readValue_render value value.render.length (weight_le_length value)
    noDigitFirst_nil
  rw [List.append_nil] at hread
  rw [read, hread]

theorem render_injective : Function.Injective Value.render := by
  intro value other heq
  have hread := read_render value
  rw [heq, read_render] at hread
  exact (Option.some.inj hread).symm

end RoundTrip

end Rtt.JsonText
