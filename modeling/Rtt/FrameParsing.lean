import Rtt.MarketMessages

namespace Rtt.FrameParsing

open Rtt.Decimal
open Rtt.MarketMessages

/-- What the JSON library makes of a text: the value, or the text of its error. -/
structure MessageJson where
  message : String → Except String WsMessage
  messages : String → Except String (List WsMessage)

/-- What a frame that is read through leaves: the messages sent to the
subscribers, and the warning logged. -/
structure FrameEffect where
  sent : List WsMessage
  warning : Option String
  deriving DecidableEq, Repr

/-- The length of a text in bytes. -/
def utf8Length (text : List Char) : Nat := (text.map Char.utf8Size).sum

def previewLength : Nat := 200

/-- The bytes of the text that a warning quotes.  There are none when the slice
panics: its end is inside a character. -/
def preview (trimmed : List Char) : Option (List Char) :=
  truncateUtf8 (min (utf8Length trimmed) previewLength) trimmed

def openBracket : Char := '['

/-- The opening brace. -/
def openBrace : Char := '\x7b'

/-- Nothing is sent, and the frame is logged with the error. -/
def failed (notice error : String) (trimmed : List Char) : Option FrameEffect :=
  (preview trimmed).map fun raw =>
    { sent := [], warning := some (notice ++ error ++ ", raw: " ++ String.ofList raw) }

/-- There is no effect when the call panics.  Warnings are enabled, so that the
preview is taken. -/
def parseAndSend (json : MessageJson) (text : String) : Option FrameEffect :=
  let trimmed := trim text.toList
  if trimmed.head? = some openBracket then
    match json.messages (String.ofList trimmed) with
    | .ok msgs => some { sent := msgs, warning := none }
    | .error error => failed "Failed to parse WS array message: " error trimmed
  else if trimmed.head? = some openBrace then
    match json.message (String.ofList trimmed) with
    | .ok msg => some { sent := [msg], warning := none }
    | .error error => failed "Failed to parse WS message: " error trimmed
  else some { sent := [], warning := none }

section Panics

/-- A cut after so many bytes is at the end of a character or past the text. -/
def CutsBetweenChars (width : Nat) (text : List Char) : Prop :=
  utf8Length text ≤ width ∨ ∃ front, front <+: text ∧ utf8Length front = width

/-- The frame is of one of the two forms and parses, or of neither. -/
structure Readable (json : MessageJson) (trimmed : List Char) : Prop where
  array : trimmed.head? = some openBracket →
    ∃ msgs, json.messages (String.ofList trimmed) = .ok msgs
  object : trimmed.head? = some openBrace →
    ∃ msg, json.message (String.ofList trimmed) = .ok msg

@[simp] theorem utf8Length_nil : utf8Length [] = 0 := rfl

@[simp] theorem utf8Length_cons (c : Char) (text : List Char) :
    utf8Length (c :: text) = c.utf8Size + utf8Length text :=
  rfl

theorem cutsBetweenChars_cons_iff {width : Nat} {c : Char} {text : List Char}
    (hwidth : width ≠ 0) :
    CutsBetweenChars width (c :: text) ↔
      c.utf8Size ≤ width ∧ CutsBetweenChars (width - c.utf8Size) text := by
  have hsize := c.utf8Size_pos
  constructor
  · rintro (hshort | ⟨front, hfront, hlength⟩)
    · rw [utf8Length_cons] at hshort
      exact ⟨by omega, Or.inl (by omega)⟩
    · rcases front with _ | ⟨d, front⟩
      · exact absurd hlength.symm hwidth
      · obtain ⟨rfl, hrest⟩ := List.cons_prefix_cons.mp hfront
        rw [utf8Length_cons] at hlength
        exact ⟨by omega, Or.inr ⟨front, hrest, by omega⟩⟩
  · rintro ⟨hfits, hshort | ⟨front, hfront, hlength⟩⟩
    · refine Or.inl ?_
      rw [utf8Length_cons]
      omega
    · refine Or.inr ⟨c :: front, List.cons_prefix_cons.mpr ⟨rfl, hfront⟩, ?_⟩
      rw [utf8Length_cons]
      omega

theorem exists_truncateUtf8_iff {width : Nat} {text : List Char} :
    (∃ kept, truncateUtf8 width text = some kept) ↔ CutsBetweenChars width text := by
  induction text generalizing width with
  | nil => exact iff_of_true ⟨[], rfl⟩ (Or.inl (Nat.zero_le _))
  | cons c text ih =>
      simp only [truncateUtf8]
      split
      · rename_i hwidth
        exact iff_of_true ⟨[], rfl⟩ (Or.inr ⟨[], List.nil_prefix, hwidth.symm⟩)
      · rename_i hwidth
        rw [cutsBetweenChars_cons_iff hwidth, ← ih]
        split
        · rename_i hfits
          simp [Option.map_eq_some_iff, hfits]
        · rename_i hfits
          simp [hfits]

theorem exists_preview_iff {trimmed : List Char} :
    (∃ raw, preview trimmed = some raw) ↔ CutsBetweenChars previewLength trimmed := by
  rw [preview, exists_truncateUtf8_iff]
  by_cases hshort : utf8Length trimmed ≤ previewLength
  · rw [min_eq_left hshort]
    exact iff_of_true (Or.inl le_rfl) (Or.inl hshort)
  · rw [min_eq_right (Nat.le_of_not_le hshort)]

theorem exists_failed_iff {notice error : String} {trimmed : List Char} :
    (∃ effect, failed notice error trimmed = some effect) ↔
      CutsBetweenChars previewLength trimmed := by
  rw [← exists_preview_iff]
  simp [failed, Option.map_eq_some_iff]

theorem bracket_ne_brace : openBracket ≠ openBrace := by decide

/-- The call returns unless the frame is to be quoted in a warning and the quote
ends inside a character. -/
theorem parse_and_send_returns_iff (json : MessageJson) (text : String) :
    (∃ effect, parseAndSend json text = some effect) ↔
      Readable json (trim text.toList) ∨
        CutsBetweenChars previewLength (trim text.toList) := by
  simp only [parseAndSend]
  by_cases harray : (trim text.toList).head? = some openBracket
  · have hobject : (trim text.toList).head? ≠ some openBrace := by
      rw [harray]
      exact fun heq => bracket_ne_brace (Option.some.inj heq)
    rw [if_pos harray]
    cases hmsgs : json.messages (String.ofList (trim text.toList)) with
    | ok msgs =>
        refine iff_of_true ⟨_, rfl⟩ (Or.inl ⟨fun _ => ⟨msgs, hmsgs⟩, ?_⟩)
        exact fun h => absurd h hobject
    | error error =>
        have hunreadable : ¬ Readable json (trim text.toList) := by
          intro h
          obtain ⟨msgs, hok⟩ := h.array harray
          rw [hmsgs] at hok
          exact absurd hok (by simp)
        rw [or_iff_right hunreadable]
        exact exists_failed_iff
  · rw [if_neg harray]
    by_cases hobject : (trim text.toList).head? = some openBrace
    · rw [if_pos hobject]
      cases hmsg : json.message (String.ofList (trim text.toList)) with
      | ok msg =>
          refine iff_of_true ⟨_, rfl⟩ (Or.inl ⟨?_, fun _ => ⟨msg, hmsg⟩⟩)
          exact fun h => absurd h harray
      | error error =>
          have hunreadable : ¬ Readable json (trim text.toList) := by
            intro h
            obtain ⟨msg, hok⟩ := h.object hobject
            rw [hmsg] at hok
            exact absurd hok (by simp)
          rw [or_iff_right hunreadable]
          exact exists_failed_iff
    · rw [if_neg hobject]
      refine iff_of_true ⟨_, rfl⟩ (Or.inl ⟨?_, ?_⟩)
      · exact fun h => absurd h harray
      · exact fun h => absurd h hobject

/-- A library that parses nothing, as the real one does with the frame below. -/
def parsesNothing : MessageJson where
  message _ := .error "key must be a string at line 1 column 2"
  messages _ := .error "expected value at line 1 column 2"

/-- An unreadable object: its bytes 199 and 200 are one character. -/
def splitFrame : String :=
  String.ofList (openBrace :: List.replicate 198 'a' ++ ['\u00e9'])

theorem split_frame_panics : parseAndSend parsesNothing splitFrame = none := by
  simp only [parseAndSend, splitFrame, String.toList_ofList]
  decide +kernel

end Panics

section Batches

/-- What is assumed of the JSON library for the texts that are arrays: they open
with a bracket, and are read as messages when each element is, in their order. -/
structure ArrayParsing (json : MessageJson) where
  elements : String → Option (List String)
  opens : ∀ text parts, elements text = some parts → text.toList.head? = some openBracket
  messages_ok_iff : ∀ text parts msgs, elements text = some parts →
    (json.messages text = .ok msgs ↔
      List.Forall₂ (fun part msg => json.message part = .ok msg) parts msgs)

/-- The text reads as a message of the websocket. -/
def IsMessage (json : MessageJson) (part : String) : Prop :=
  ∃ msg, json.message part = .ok msg

/-- The messages that the elements are by themselves, in their order. -/
def wellFormed (json : MessageJson) (parts : List String) : List WsMessage :=
  parts.filterMap fun part => (json.message part).toOption

/-- The messages broadcast, if the call comes so far. -/
def broadcasts (json : MessageJson) (text : String) : List WsMessage :=
  ((parseAndSend json text).map FrameEffect.sent).getD []

variable {json : MessageJson} {parts : List String} {msgs : List WsMessage}

theorem wellFormed_eq_nil_iff :
    wellFormed json parts = [] ↔ ∀ part ∈ parts, ¬ IsMessage json part := by
  rw [wellFormed, List.filterMap_eq_nil_iff]
  refine forall₂_congr fun part _ => ?_
  cases hmsg : json.message part <;> simp [IsMessage, hmsg, Except.toOption]

theorem forall₂_message_iff :
    List.Forall₂ (fun part msg => json.message part = .ok msg) parts msgs ↔
      (∀ part ∈ parts, IsMessage json part) ∧ msgs = wellFormed json parts := by
  induction parts generalizing msgs with
  | nil => simp [wellFormed]
  | cons part parts ih =>
      rw [List.forall₂_cons_left_iff, List.forall_mem_cons]
      simp only [ih]
      constructor
      · rintro ⟨msg, rest, hmsg, ⟨hall, rfl⟩, rfl⟩
        refine ⟨⟨⟨msg, hmsg⟩, hall⟩, ?_⟩
        simp [wellFormed, hmsg, Except.toOption]
      · rintro ⟨⟨⟨msg, hmsg⟩, hall⟩, rfl⟩
        refine ⟨msg, wellFormed json parts, hmsg, ⟨hall, rfl⟩, ?_⟩
        simp [wellFormed, hmsg, Except.toOption]

theorem broadcasts_of_array {text : String}
    (hopens : (trim text.toList).head? = some openBracket) :
    broadcasts json text =
      (json.messages (String.ofList (trim text.toList))).toOption.getD [] := by
  rw [broadcasts, parseAndSend, if_pos hopens]
  cases json.messages (String.ofList (trim text.toList)) with
  | ok msgs => rfl
  | error error =>
      simp only [failed]
      cases preview (trim text.toList) <;> rfl

/-- The messages of an array frame are all broadcast when every element is one,
and otherwise none is. -/
theorem batch_broadcast_iff (json : MessageJson) (arrays : ArrayParsing json) (text : String)
    (parts : List String)
    (hparts : arrays.elements (String.ofList (trim text.toList)) = some parts) :
    (wellFormed json parts).Sublist (broadcasts json text) ↔
      (∀ part ∈ parts, IsMessage json part) ∨ ∀ part ∈ parts, ¬ IsMessage json part := by
  have hopens := arrays.opens _ _ hparts
  rw [String.toList_ofList] at hopens
  have hok := fun msgs => (arrays.messages_ok_iff _ parts msgs hparts).trans forall₂_message_iff
  rw [broadcasts_of_array hopens, ← wellFormed_eq_nil_iff]
  cases hmsgs : json.messages (String.ofList (trim text.toList)) with
  | ok msgs =>
      obtain ⟨hall, rfl⟩ := (hok msgs).mp hmsgs
      exact iff_of_true (List.Sublist.refl _) (Or.inl hall)
  | error error =>
      have hsome : ¬ ∀ part ∈ parts, IsMessage json part := by
        intro hall
        have hread := (hok _).mpr ⟨hall, rfl⟩
        rw [hmsgs] at hread
        exact absurd hread (by simp)
      rw [or_iff_right hsome]
      exact List.sublist_nil

def bookText (assetId : String) : String :=
  "\x7b\"event_type\":\"book\",\"asset_id\":\"" ++ assetId ++
    "\",\"market\":\"m\",\"timestamp\":\"1\"\x7d"

def unknownText : String := "\x7b\"event_type\":\"new_market\"\x7d"

def bookMessage (assetId : String) : WsMessage :=
  .book { assetId, market := "m", timestamp := "1", bids := [], asks := [], hash := none }

def onlyBooks : String := "[" ++ bookText "yes" ++ "," ++ bookText "no" ++ "]"

def mixedBatch : String := "[" ++ bookText "yes" ++ "," ++ unknownText ++ "]"

/-- The library on the books and the two arrays. -/
def sampleJson : MessageJson where
  message text :=
    if text = bookText "yes" then .ok (bookMessage "yes")
    else if text = bookText "no" then .ok (bookMessage "no")
    else .error "unknown variant"
  messages text :=
    if text = onlyBooks then .ok [bookMessage "yes", bookMessage "no"]
    else .error "unknown variant"

def sampleElements (text : String) : Option (List String) :=
  if text = onlyBooks then some [bookText "yes", bookText "no"]
  else if text = mixedBatch then some [bookText "yes", unknownText]
  else none

theorem sample_onlyBooks (msgs : List WsMessage) :
    sampleJson.messages onlyBooks = .ok msgs ↔
      (∀ part ∈ [bookText "yes", bookText "no"], IsMessage sampleJson part) ∧
        msgs = wellFormed sampleJson [bookText "yes", bookText "no"] := by
  have hno : bookText "no" ≠ bookText "yes" := by decide
  simp [sampleJson, IsMessage, wellFormed, Except.toOption, hno, eq_comm]

theorem sample_mixedBatch (msgs : List WsMessage) :
    sampleJson.messages mixedBatch = .ok msgs ↔
      (∀ part ∈ [bookText "yes", unknownText], IsMessage sampleJson part) ∧
        msgs = wellFormed sampleJson [bookText "yes", unknownText] := by
  have hbatch : mixedBatch ≠ onlyBooks := by decide
  have hyes : unknownText ≠ bookText "yes" := by decide
  have hno : unknownText ≠ bookText "no" := by decide
  simp [sampleJson, IsMessage, hbatch, hyes, hno]

def sampleArrays : ArrayParsing sampleJson where
  elements := sampleElements
  opens := by
    intro text parts h
    simp only [sampleElements] at h
    split_ifs at h with honly hmixed
    · rw [honly]
      decide +kernel
    · rw [hmixed]
      decide +kernel
  messages_ok_iff := by
    intro text parts msgs h
    rw [forall₂_message_iff]
    simp only [sampleElements] at h
    split_ifs at h with honly hmixed
    · obtain rfl := Option.some.inj h
      rw [honly]
      exact sample_onlyBooks msgs
    · obtain rfl := Option.some.inj h
      rw [hmixed]
      exact sample_mixedBatch msgs

theorem batch_broadcast_iff_onlyBooks :
    (wellFormed sampleJson [bookText "yes", bookText "no"]).Sublist
      (broadcasts sampleJson onlyBooks) := by
  refine (batch_broadcast_iff sampleJson sampleArrays onlyBooks _ ?_).mpr (Or.inl ?_)
  · decide +kernel
  · refine List.forall_mem_cons.mpr ⟨?_, List.forall_mem_singleton.mpr ?_⟩
    · exact ⟨bookMessage "yes", by decide +kernel⟩
    · exact ⟨bookMessage "no", by decide +kernel⟩

/-- The book beside an unknown event is not broadcast. -/
theorem book_lost_with_its_batch :
    sampleArrays.elements mixedBatch = some [bookText "yes", unknownText] ∧
      ¬ (wellFormed sampleJson [bookText "yes", unknownText]).Sublist
        (broadcasts sampleJson mixedBatch) := by
  decide +kernel

end Batches

end Rtt.FrameParsing
