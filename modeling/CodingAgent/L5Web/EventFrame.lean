import CodingAgent.L3Api.Contract
import CodingAgent.L5Web.SseParser

/-!
# Frames of persisted events, as the client reads them

What the server writes for an event (`coding-agent-api/src/sse.rs:582-590`)
against the parser of the client (`web/src/api/sse.ts:47-257`).

* `drainLines_fields`: the lines of a frame are one frame, or too large.
* `parseChunks_event`: so is an event's, however its bytes are cut.
* `frame_length`: its length in bytes, by the fields of the event.
* `frames_fit_iff`: for which prompts every frame without a failure fits.
-/
namespace CodingAgent.L5.Web
open CodingAgent.L1.Domain CodingAgent.L3.Api Utf8 Json

section
variable {maxFrameBytes : Nat}

/-! ## Lines -/

theorem findLineEnding_line {line : List Char} (h : OneLine line) (rest : List Char) :
    findLineEnding (line ++ '\n' :: rest) = some (line, '\n', rest) := by
  induction line with
  | nil => rfl
  | cons c line ih =>
    obtain ⟨⟨hn, hr⟩, hline⟩ := oneLine_cons.1 h
    rw [List.cons_append, findLineEnding, if_neg (by simp [hn, hr]), ih hline]
    rfl

theorem takeLine_line {line : List Char} (h : OneLine line) (finishing : Bool) (rest : List Char) :
    takeLine finishing (line ++ '\n' :: rest) = some (line, 1, rest) := by
  rw [takeLine, findLineEnding_line h]
  rfl

theorem byteLength_cons (c : Char) (cs : List Char) :
    byteLength (c :: cs) = c.utf8Size + byteLength cs := by
  rw [byteLength, encode, List.flatMap_cons, List.length_append, String.length_utf8EncodeChar]
  rfl

theorem consumeField_bytes (fields : FrameFields) (frameBytes : Nat) (line : List Char) :
    consumeField { fields with frameBytes } line =
      { consumeField fields line with frameBytes } := by
  simp only [consumeField]
  split_ifs <;> rfl

theorem foldl_consumeField_bytes (lines : List (List Char)) (fields : FrameFields)
    (frameBytes : Nat) : lines.foldl consumeField { fields with frameBytes } =
      { lines.foldl consumeField fields with frameBytes } := by
  induction lines generalizing fields with
  | nil => rfl
  | cons line lines ih => rw [List.foldl_cons, List.foldl_cons, consumeField_bytes, ih]

/-- A line with a field. -/
structure IsField (line : List Char) : Prop where
  ne_nil : line ≠ []
  head : line.head? ≠ some ':'
  oneLine : OneLine line

/-- The frame of some fields. -/
def frameOf (fields : FrameFields) : List RawFrame :=
  if fields.dataLines = [] then []
  else [makeFrame fields (List.intercalate ['\n'] fields.dataLines)]

/-- The lines of a frame: by induction on them, with the bytes so far. -/
theorem drainLines_fields (maxFrameBytes : Nat) {lines : List (List Char)} (h : ∀ line ∈ lines, IsField line)
    (finishing : Bool) (fields : FrameFields) :
    drainLines maxFrameBytes finishing fields ((lines ++ [[]]).flatMap (· ++ ['\n'])) =
      if maxFrameBytes < fields.frameBytes + byteLength ((lines ++ [[]]).flatMap (· ++ ['\n'])) then
        .error (frameTooLarge maxFrameBytes)
      else .ok (.empty, [], frameOf (lines.foldl consumeField fields)) := by
  induction lines generalizing fields with
  | nil =>
    have hline : takeLine finishing ['\n'] = some ([], 1, []) := rfl
    have hnone : takeLine finishing [] = none := rfl
    have htext : ([[]] : List (List Char)).flatMap (· ++ ['\n']) = ['\n'] := rfl
    rw [List.nil_append, htext, drainLines_of_some hline]
    have hsize : fields.frameBytes + byteLength [] + 1 =
      fields.frameBytes + byteLength ['\n'] := rfl
    rw [hsize]
    split
    · rfl
    · simp only [consumeLine, if_true, drainLines_of_none hnone, List.foldl_nil]
      by_cases hdata : fields.dataLines = []
      · have hframe : frameOf fields = [] := if_pos hdata
        simp only [if_pos hdata, hframe]
        rfl
      · have hframe : frameOf fields =
          [makeFrame fields (List.intercalate ['\n'] fields.dataLines)] := if_neg hdata
        simp only [if_neg hdata, hframe]
        rfl
  | cons line lines ih =>
    obtain ⟨hfield, hlines⟩ := List.forall_mem_cons.1 h
    have htext : ((line :: lines) ++ [[]]).flatMap (· ++ ['\n']) =
        line ++ '\n' :: (lines ++ [[]]).flatMap (· ++ ['\n']) := by
      rw [List.cons_append, List.flatMap_cons, List.append_assoc]
      rfl
    rw [htext, drainLines_of_some (takeLine_line hfield.oneLine _ _), byteLength_append,
      byteLength_cons, show '\n'.utf8Size = 1 from rfl]
    generalize hrest : (lines ++ [[]]).flatMap (· ++ ['\n']) = rest at *
    by_cases hlarge : maxFrameBytes < fields.frameBytes + byteLength line + 1
    · rw [if_pos hlarge, if_pos (by omega)]
    · rw [if_neg hlarge]
      simp only [consumeLine, if_neg hfield.ne_nil, if_neg hfield.head, consumeField_bytes,
        ih hlines, foldl_consumeField_bytes, List.foldl_cons]
      have hsum : fields.frameBytes + byteLength line + 1 + byteLength rest =
        fields.frameBytes + (byteLength line + (1 + byteLength rest)) := by omega
      rw [hsum]
      split
      · rfl
      · rfl

/-! ## Runs -/

theorem drainLines_error {finishing : Bool} {fields : FrameFields} {pending : List Char}
    {error : SseProtocolError}
    (h : drainLines maxFrameBytes finishing fields pending = .error error) :
    error = frameTooLarge maxFrameBytes := by
  induction hlen : pending.length using Nat.strongRecOn generalizing fields pending with
  | ind n ih =>
    cases hline : takeLine finishing pending with
    | none =>
      rw [drainLines_of_none hline] at h
      cases h
    | some first =>
      obtain ⟨line, separatorLength, rest⟩ := first
      have hlt := takeLine_length hline
      rw [drainLines_of_some hline] at h
      split at h
      · cases h
        rfl
      · dsimp only at h
        cases hrest : drainLines maxFrameBytes finishing (consumeLine _ line).1 rest with
        | ok drained =>
          rw [hrest] at h
          cases h
        | error error' =>
          rw [hrest] at h
          cases h
          exact ih rest.length (by omega) hrest rfl

/-- A text that is too large when it is drained at once is too large for a
parser, however its bytes come. -/
theorem runFrom_large {bytes : List UInt8} {parser : SseParser} {frames : List RawFrame}
    (hparsed : Parsed maxFrameBytes bytes parser frames) (chunks : List (List UInt8))
    {decoder : TextDecoder} {text : List Char}
    (hdecode : TextDecoder.new.decode (bytes ++ chunks.flatten) = some (decoder, text))
    (hwaiting : decoder.waiting = []) {error : SseProtocolError}
    (hlarge : drainLines maxFrameBytes true .empty text = .error error) :
    (runFrom maxFrameBytes parser chunks).error =
      some (.protocol (frameTooLarge maxFrameBytes)) := by
  induction chunks generalizing bytes parser frames with
  | nil =>
    obtain ⟨text', hread, hdrain⟩ := hparsed.read
    rw [List.flatten_nil, List.append_nil, hread] at hdecode
    cases hdecode
    rw [← List.append_nil text, drainLines_append, hdrain] at hlarge
    simp only [Except.bind, List.append_nil] at hlarge
    have hfinish : finish maxFrameBytes parser =
        .error (.protocol (frameTooLarge maxFrameBytes)) := by
      rw [finish, hparsed.running, if_neg Bool.false_ne_true, TextDecoder.flush, if_pos hwaiting]
      simp only [List.append_nil]
      cases hlater : drainLines maxFrameBytes true parser.fields parser.pending with
      | ok drained =>
        rw [hlater] at hlarge
        cases hlarge
      | error error => rw [drainLines_error hlater]
    rw [runFrom, hfinish]
  | cons chunk chunks ih =>
    cases hpush : push maxFrameBytes parser chunk with
    | ok result =>
      obtain ⟨parser', later⟩ := result
      rw [List.flatten_cons, ← List.append_assoc] at hdecode
      have hrest := ih (push_ok hparsed hpush) hdecode
      simp only [runFrom, hpush, hrest]
    | error error =>
      simp only [runFrom, hpush]
      obtain ⟨text', hread, hdrain⟩ := hparsed.read
      rw [List.flatten_cons, TextDecoder.decode_append, hread, Option.bind_some] at hdecode
      obtain ⟨rest, hrest, -⟩ := Option.map_eq_some_iff.1 hdecode
      rw [TextDecoder.decode_append] at hrest
      rw [push, hparsed.running, if_neg Bool.false_ne_true] at hpush
      cases hchunk : parser.decoder.decode chunk with
      | none =>
        rw [hchunk] at hrest
        cases hrest
      | some decoded =>
        obtain ⟨decoder', first⟩ := decoded
        simp only [hchunk] at hpush
        cases hfirst : drainLines maxFrameBytes false parser.fields (parser.pending ++ first) with
        | error error' =>
          rw [hfirst] at hpush
          cases hpush
          rw [drainLines_error hfirst]
        | ok drained =>
          simp only [hfirst, assertFrameSize] at hpush
          split at hpush
          · next hsize =>
            split at hsize
            · cases hsize
              cases hpush
              rfl
            · cases hsize
          · cases hpush

/-- The bytes of a frame, however they are cut. -/
theorem parseChunks_fields (maxFrameBytes : Nat) {lines : List (List Char)} (h : ∀ line ∈ lines, IsField line)
    {c : Char} {text : List Char} (hc : c ≠ byteOrderMark)
    (htext : (lines ++ [[]]).flatMap (· ++ ['\n']) = c :: text) {chunks : List (List UInt8)}
    (hchunks : chunks.flatten = frameBytes (lines ++ [[]])) :
    if maxFrameBytes < (frameBytes (lines ++ [[]])).length then
      (parseChunks maxFrameBytes chunks).error = some (.protocol (frameTooLarge maxFrameBytes))
    else parseChunks maxFrameBytes chunks =
      { frames := frameOf (lines.foldl consumeField .empty), error := none } := by
  have hdrain := drainLines_fields maxFrameBytes h true .empty
  have hdecode := TextDecoder.decode_encode hc text
  have hlength : (frameBytes (lines ++ [[]])).length = byteLength (c :: text) := by
    rw [frameBytes, htext]
    rfl
  have hbytes : FrameFields.empty.frameBytes + byteLength (c :: text) = byteLength (c :: text) :=
    Nat.zero_add _
  rw [htext, hbytes] at hdrain
  rw [frameBytes, htext] at hchunks
  rw [hlength]
  split
  · next hlarge =>
    rw [if_pos hlarge] at hdrain
    rw [← hchunks] at hdecode
    exact runFrom_large (parsed_new _) chunks hdecode rfl hdrain
  · next hfits =>
    rw [if_neg hfits] at hdrain
    have haccepts : Accepts maxFrameBytes chunks.flatten
        (frameOf (lines.foldl consumeField .empty)) :=
      ⟨_, _, by rw [hchunks]; exact hdecode, rfl, hdrain⟩
    rcases runFrom_spec (parsed_new maxFrameBytes) chunks with
      ⟨hnone, haccepts'⟩ | ⟨-, hrefused, -⟩
    · rw [List.nil_append, List.nil_append] at haccepts'
      have hframes := haccepts'.frames_eq haccepts
      have heta : parseChunks maxFrameBytes chunks =
          ⟨(runFrom maxFrameBytes .new chunks).frames, (runFrom maxFrameBytes .new chunks).error⟩ := rfl
      rw [heta, hnone, hframes]
    · exact absurd haccepts (hrefused _)

end

/-! ## The frame of an event -/

/-- What the parser makes of the frame of an event. -/
def rawFrame (event : TaskEvent) : RawFrame :=
  { event := (eventName event.kind).toList
    data := (taskEventDto event).print
    id := some (Nat.toDigits 10 event.id.get) }

theorem isField_eventField {name value : List Char} (hne : name ≠ [])
    (hhead : name.head? ≠ some ':') (hname : OneLine name) (hvalue : OneLine value) :
    IsField (eventField name value) where
  ne_nil := by simp [eventField]
  head := by
    cases name with
    | nil => exact absurd rfl hne
    | cons c name => exact hhead
  oneLine := by
    rw [eventField, oneLine_append, oneLine_cons, oneLine_cons]
    exact ⟨hname, by decide, by decide, hvalue⟩

theorem oneLine_eventName (kind : TaskEventKind) : OneLine (eventName kind).toList := by
  cases kind <;> decide

theorem isField_persistedEvent (event : TaskEvent) : ∀ line ∈
    [eventField "id".toList (Nat.toDigits 10 event.id.get),
      eventField "event".toList (eventName event.kind).toList,
      eventField "data".toList (taskEventDto event).print], IsField line := by
  simp only [List.forall_mem_cons]
  refine ⟨?_, ?_, ?_, fun _ hline => absurd hline List.not_mem_nil⟩
  · exact isField_eventField (by decide) (by decide) (by decide)
      (oneLine_digits fun c hc => isDigit_toDigits hc)
  · exact isField_eventField (by decide) (by decide) (by decide) (oneLine_eventName _)
  · exact isField_eventField (by decide) (by decide) (by decide)
      (oneLine_print _ (plain_taskEventDto event))

theorem consumeField_id {value : List Char} (h : '\x00' ∉ value) (fields : FrameFields) :
    consumeField fields (eventField "id".toList value) = { fields with eventId := some value } := by
  have hfield : (eventField "id".toList value).takeWhile (· ≠ ':') = "id".toList := rfl
  have hvalue : ((eventField "id".toList value).dropWhile (· ≠ ':')).tail = ' ' :: value := rfl
  simp only [consumeField, hfield, hvalue, List.head?_cons, if_true, List.tail_cons]
  rw [if_neg (by decide), if_neg (by decide), if_neg h]

theorem consumeField_event (value : List Char) (fields : FrameFields) :
    consumeField fields (eventField "event".toList value) = { fields with eventName := value } := by
  have hfield : (eventField "event".toList value).takeWhile (· ≠ ':') = "event".toList := rfl
  have hvalue : ((eventField "event".toList value).dropWhile (· ≠ ':')).tail = ' ' :: value := rfl
  simp only [consumeField, hfield, hvalue, List.head?_cons, if_true, List.tail_cons]
  rw [if_neg (by decide)]

theorem consumeField_data (value : List Char) (fields : FrameFields) :
    consumeField fields (eventField "data".toList value) =
      { fields with dataLines := fields.dataLines ++ [value] } := by
  have hfield : (eventField "data".toList value).takeWhile (· ≠ ':') = "data".toList := rfl
  have hvalue : ((eventField "data".toList value).dropWhile (· ≠ ':')).tail = ' ' :: value := rfl
  simp only [consumeField, hfield, hvalue, List.head?_cons, if_true, List.tail_cons]

theorem frameOf_persistedEvent (event : TaskEvent) : frameOf
    ([eventField "id".toList (Nat.toDigits 10 event.id.get),
      eventField "event".toList (eventName event.kind).toList,
      eventField "data".toList (taskEventDto event).print].foldl consumeField .empty) =
      [rawFrame event] := by
  have hid : '\x00' ∉ Nat.toDigits 10 event.id.get := fun h => by cases isDigit_toDigits h
  have hname : (eventName event.kind).toList ≠ [] := by cases event.kind <;> decide
  simp only [List.foldl_cons, List.foldl_nil, consumeField_id hid, consumeField_event,
    consumeField_data]
  simp [frameOf, makeFrame, FrameFields.empty, rawFrame, hname]

/-- **The frame of an event**, however its bytes are cut: one frame, or too
large. -/
theorem parseChunks_event (maxFrameBytes : Nat) (event : TaskEvent) {chunks : List (List UInt8)}
    (h : chunks.flatten = frameBytes (persistedEvent event)) :
    if maxFrameBytes < (frameBytes (persistedEvent event)).length then
      (parseChunks maxFrameBytes chunks).error = some (.protocol (frameTooLarge maxFrameBytes))
    else parseChunks maxFrameBytes chunks = { frames := [rawFrame event], error := none } := by
  have hparse := parseChunks_fields maxFrameBytes
    (isField_persistedEvent event) (show 'i' ≠ byteOrderMark by decide) rfl h
  rwa [frameOf_persistedEvent] at hparse

/-! ## Bytes of documents -/

/-- The bytes a character of a string is written with. -/
def escapedSize (c : Char) : Nat :=
  if c ∈ ['"', '\\', '\x08', '\t', '\n', '\x0c', '\r'] then 2
  else if c < ' ' then 6
  else c.utf8Size

/-- The bytes a string is written with, the quotes apart. -/
def escapedLength (s : String) : Nat := (s.toList.map escapedSize).sum

@[simp] theorem byteLength_nil : byteLength [] = 0 := rfl

theorem byteLength_ascii {cs : List Char} (h : ∀ c ∈ cs, c.utf8Size = 1) :
    byteLength cs = cs.length := by
  induction cs with
  | nil => rfl
  | cons c cs ih =>
    obtain ⟨hc, hcs⟩ := List.forall_mem_cons.1 h
    rw [byteLength_cons, hc, ih hcs, List.length_cons, Nat.add_comm]

theorem utf8Size_digitChar {d : Nat} (h : d < 16) : d.digitChar.utf8Size = 1 := by
  have key : ∀ d : Fin 16, d.val.digitChar.utf8Size = 1 := by decide
  exact key ⟨d, h⟩

theorem byteLength_printChar (c : Char) : byteLength (printChar c) = escapedSize c := by
  by_cases hm : c ∈ ['"', '\\', '\x08', '\t', '\n', '\x0c', '\r']
  · rw [escapedSize, if_pos hm]
    simp only [List.mem_cons, List.not_mem_nil, or_false] at hm
    rcases hm with rfl | rfl | rfl | rfl | rfl | rfl | rfl <;> rfl
  · rw [escapedSize, if_neg hm]
    simp only [List.mem_cons, List.not_mem_nil, or_false, not_or] at hm
    obtain ⟨h₁, h₂, h₃, h₄, h₅, h₆, h₇⟩ := hm
    rw [printChar, if_neg h₁, if_neg h₂, if_neg h₃, if_neg h₄, if_neg h₅, if_neg h₆, if_neg h₇]
    split
    · have hdigits : byteLength (Digits.numeral 16 4 c.toNat) = 4 := by
        rw [byteLength_ascii fun d hd => ?_, Digits.numeral_length]
        obtain ⟨n, hn, rfl⟩ := Digits.mem_numeral (by decide) hd
        exact utf8Size_digitChar hn
      rw [byteLength_cons, byteLength_cons, hdigits]
      rfl
    · rw [byteLength_cons, byteLength_nil, Nat.add_zero]

theorem byteLength_printString (s : String) :
    byteLength (printString s) = escapedLength s + 2 := by
  have hchars : ∀ cs : List Char,
      byteLength (cs.flatMap printChar) = (cs.map escapedSize).sum := by
    intro cs
    induction cs with
    | nil => rfl
    | cons c cs ih =>
      rw [List.flatMap_cons, byteLength_append, byteLength_printChar, ih, List.map_cons,
        List.sum_cons]
  rw [printString, byteLength_cons, byteLength_append, hchars, escapedLength]
  show 1 + (_ + 1) = _
  omega

/-- Digits of a number in decimal. -/
def digitCount (n : Nat) : Nat := (Nat.toDigits 10 n).length

theorem byteLength_toDigits (n : Nat) : byteLength (Nat.toDigits 10 n) = digitCount n := by
  refine byteLength_ascii fun c hc => ?_
  have hdigit : c.isDigit = true := isDigit_toDigits hc
  simp only [Char.isDigit, Bool.and_eq_true, decide_eq_true_eq, ge_iff_le] at hdigit
  exact Char.utf8Size_eq_one_iff.2 (UInt32.le_trans hdigit.2 (by decide))

theorem byteLength_int (n : Nat) : byteLength (print (.int n)) = digitCount n := by
  rw [print, printInt, if_neg (by omega), Int.natAbs_natCast, byteLength_toDigits]

theorem byteLength_printMembers (ms : List (String × Json)) : byteLength (printMembers ms) =
    1 + (ms.map fun m => byteLength (printString m.1) + byteLength (print m.2) + 2).sum := by
  induction ms with
  | nil => rfl
  | cons m ms ih =>
    obtain ⟨k, v⟩ := m
    have hcomma : ','.utf8Size = 1 := rfl
    have hcolon : ':'.utf8Size = 1 := rfl
    simp only [printMembers, byteLength_cons, byteLength_append, ih, List.map_cons, List.sum_cons,
      hcomma, hcolon]
    omega

theorem byteLength_object (m : String × Json) (ms : List (String × Json)) :
    byteLength (print (.object (m :: ms))) = 1 +
      ((m :: ms).map fun m => byteLength (printString m.1) + byteLength (print m.2) + 2).sum := by
  obtain ⟨k, v⟩ := m
  have hbrace : '{'.utf8Size = 1 := rfl
  have hcolon : ':'.utf8Size = 1 := rfl
  simp only [print, byteLength_cons, byteLength_append, byteLength_printMembers, List.map_cons,
    List.sum_cons, hbrace, hcolon]
  omega

/-- Every character is written as it is, with one byte. -/
def Unescaped (cs : List Char) : Prop := ∀ c ∈ cs, escapedSize c = 1

theorem unescaped_cons {c : Char} {cs : List Char} :
    Unescaped (c :: cs) ↔ escapedSize c = 1 ∧ Unescaped cs := List.forall_mem_cons

theorem unescaped_append {a b : List Char} : Unescaped (a ++ b) ↔ Unescaped a ∧ Unescaped b :=
  List.forall_mem_append

theorem unescaped_nil : Unescaped [] := fun _ hc => absurd hc List.not_mem_nil

theorem unescaped_numeral {b : Nat} (hb : 0 < b) (h : b ≤ 16) (w n : Nat) :
    Unescaped (Digits.numeral b w n) := by
  intro c hc
  obtain ⟨d, hd, rfl⟩ := Digits.mem_numeral hb hc
  have key : ∀ d : Fin 16, escapedSize d.val.digitChar = 1 := by decide
  exact key ⟨d, by omega⟩

theorem escapedLength_unescaped {s : String} (h : Unescaped s.toList) :
    escapedLength s = s.toList.length := by
  have hsum : ∀ cs, Unescaped cs → (cs.map escapedSize).sum = cs.length := by
    intro cs hcs
    induction cs with
    | nil => rfl
    | cons c cs ih =>
      obtain ⟨hc, hcs⟩ := unescaped_cons.1 hcs
      rw [List.map_cons, List.sum_cons, hc, ih hcs, List.length_cons, Nat.add_comm]
  exact hsum _ h

theorem byteLength_uuidDto (value : Uuid) : byteLength (print (uuidDto value)) = 38 := by
  have hplain : Unescaped value.text.toList := by
    rw [Uuid.text, String.toList_ofList]
    simp only [UuidText.format, unescaped_append, unescaped_cons,
      unescaped_numeral (show 0 < 16 by decide) (Nat.le_refl 16), true_and, and_true]
    decide
  rw [uuidDto, print, byteLength_printString, escapedLength_unescaped hplain, Uuid.text,
    String.toList_ofList, UuidText.format_length]

theorem byteLength_utcTimestampDto (value : UtcTimestamp) :
    byteLength (print (utcTimestampDto value)) = 32 := by
  have hplain : Unescaped value.text.toList := by
    rw [UtcTimestamp.text, String.toList_ofList]
    simp only [Rfc3339.format, Rfc3339.formatDate, Rfc3339.formatClock, unescaped_append,
      unescaped_cons, unescaped_nil, unescaped_numeral (show 0 < 10 by decide) (show 10 ≤ 16 by decide),
      true_and, and_true]
    decide
  rw [utcTimestampDto, print, byteLength_printString, escapedLength_unescaped hplain,
    UtcTimestamp.text, String.toList_ofList]
  simp [Rfc3339.format, Rfc3339.formatDate, Rfc3339.formatClock]

theorem byteLength_optionDto {α : Type} {dto : α → Json} {n : Nat}
    (h : ∀ a, byteLength (print (dto a)) = n) (value : Option α) :
    byteLength (print (optionDto dto value)) = if value.isSome then n else 4 := by
  cases value with
  | none => rfl
  | some a => exact h a

/-- The bytes of a task without a failure, its prompt apart. -/
def taskLength (task : Task) : Nat :=
  313 + (taskStatusDto task.status).length + digitCount task.attempt.toNat +
    digitCount task.lastEventId.get + (if task.retryOf.isSome then 38 else 4) +
    (if task.startedAt.isSome then 32 else 4) + (if task.finishedAt.isSome then 32 else 4)

theorem byteLength_taskDto {task : Task} (hf : task.failure = none) :
    byteLength (print (taskDto task)) = escapedLength task.prompt + taskLength task := by
  have hstatus : escapedLength (taskStatusDto task.status) = (taskStatusDto task.status).length := by
    cases task.status <;> rfl
  have hretry := byteLength_optionDto (fun id : TaskId => byteLength_uuidDto id.uuid) task.retryOf
  have hstarted := byteLength_optionDto byteLength_utcTimestampDto task.startedAt
  have hfinished := byteLength_optionDto byteLength_utcTimestampDto task.finishedAt
  have hnull : byteLength (print (optionDto taskFailureDto task.failure)) = 4 := by rw [hf]; rfl
  have hprompt : ∀ s : String, byteLength (print (.string s)) = escapedLength s + 2 := fun s => by
    rw [print, byteLength_printString]
  simp only [taskDto, byteLength_object, List.map_cons, List.map_nil, List.sum_cons, List.sum_nil,
    byteLength_printString, hprompt, hstatus, hretry, hstarted, hfinished, hnull,
    byteLength_uuidDto, byteLength_utcTimestampDto, byteLength_int, taskLength,
    show escapedLength "id" = 2 from rfl, show escapedLength "client_request_id" = 17 from rfl,
    show escapedLength "repository_id" = 13 from rfl, show escapedLength "prompt" = 6 from rfl,
    show escapedLength "status" = 6 from rfl, show escapedLength "attempt" = 7 from rfl,
    show escapedLength "retry_of" = 8 from rfl, show escapedLength "created_at" = 10 from rfl,
    show escapedLength "started_at" = 10 from rfl, show escapedLength "finished_at" = 11 from rfl,
    show escapedLength "last_event_id" = 13 from rfl, show escapedLength "failure" = 7 from rfl]
  clear hretry hstarted hfinished
  -- an optional member has the same length on both sides
  generalize (if task.retryOf.isSome then 38 else 4) = retry
  generalize (if task.startedAt.isSome then 32 else 4) = started
  generalize (if task.finishedAt.isSome then 32 else 4) = finished
  omega

/-- The bytes of the frame of an event, the document of its payload apart. -/
def envelopeLength (event : TaskEvent) : Nat :=
  162 + 2 * digitCount event.id.get + digitCount event.schemaVersion +
    2 * (eventName event.kind).length

theorem byteLength_frame (event : TaskEvent) : (frameBytes (persistedEvent event)).length =
    envelopeLength event + byteLength (print (payloadDto event.payload)) := by
  have hname : escapedLength (eventName event.kind) = (eventName event.kind).length ∧
      byteLength (eventName event.kind).toList = (eventName event.kind).length := by
    cases event.kind <;> exact ⟨rfl, rfl⟩
  have hstring : ∀ s : String, byteLength (print (.string s)) = escapedLength s + 2 := fun s => by
    rw [print, byteLength_printString]
  have hfield : ∀ name value : List Char,
      byteLength (eventField name value) = byteLength name + 2 + byteLength value := by
    intro name value
    have hcolon : ':'.utf8Size = 1 := rfl
    have hspace : ' '.utf8Size = 1 := rfl
    rw [eventField, byteLength_append, byteLength_cons, byteLength_cons, hcolon, hspace]
    omega
  have hend : byteLength ['\n'] = 1 := rfl
  change byteLength ((persistedEvent event).flatMap (· ++ ['\n'])) = _
  simp only [persistedEvent, List.flatMap_cons, List.flatMap_nil, byteLength_append, hfield, hend,
    byteLength_nil, byteLength_toDigits, hname.2, taskEventDto, byteLength_object, List.map_cons,
    List.map_nil, List.sum_cons, List.sum_nil, byteLength_printString, hstring, hname.1,
    byteLength_uuidDto, byteLength_utcTimestampDto, byteLength_int, envelopeLength,
    show byteLength "id".toList = 2 from rfl, show byteLength "event".toList = 5 from rfl,
    show byteLength "data".toList = 4 from rfl, show escapedLength "id" = 2 from rfl,
    show escapedLength "schema_version" = 14 from rfl, show escapedLength "task_id" = 7 from rfl,
    show escapedLength "kind" = 4 from rfl, show escapedLength "payload" = 7 from rfl,
    show escapedLength "created_at" = 10 from rfl]
  omega

/-! ## The limit -/

/-- mirrors web/src/api/sse.ts:4 -/
def defaultMaxFrameBytes : Nat := 256 * 1024

/-- An event of the life of a task without a failure, as the store appends it. -/
structure LifecycleEvent (event : TaskEvent) (task : Task) : Prop where
  payload : event.payload.task? = some task
  schemaVersion : event.schemaVersion = 1
  taskId : event.taskId = task.id
  status : task.status = expectedStatus event.kind
  wellFormed : task.WellFormed
  lastEventId : task.lastEventId = event.id
  failure : task.failure = none

/-- The frame is within the default limit of the client, and its parser never
finds it too large. -/
def FrameFits (event : TaskEvent) : Prop :=
  (frameBytes (persistedEvent event)).length ≤ defaultMaxFrameBytes ∧
    ∀ chunks : List (List UInt8), chunks.flatten = frameBytes (persistedEvent event) →
      (parseChunks defaultMaxFrameBytes chunks).error ≠
        some (.protocol (frameTooLarge defaultMaxFrameBytes))

theorem frameFits_iff (event : TaskEvent) :
    FrameFits event ↔ (frameBytes (persistedEvent event)).length ≤ defaultMaxFrameBytes := by
  refine ⟨And.left, fun hfits => ⟨hfits, fun chunks hchunks => ?_⟩⟩
  have hparse := parseChunks_event defaultMaxFrameBytes event hchunks
  rw [if_neg (Nat.not_lt.2 hfits)] at hparse
  rw [hparse]
  nofun

theorem digitCount_le {n k : Nat} (hk : 0 < k) (h : n < 10 ^ k) : digitCount n ≤ k :=
  (Nat.length_toDigits_le_iff (by decide) hk).2 h

/-- The document of a lifecycle payload is that of its task. -/
theorem payloadDto_task {payload : TaskEventPayload} {task : Task}
    (h : payload.task? = some task) : payloadDto payload = .object [("task", taskDto task)] := by
  cases payload <;> cases h <;> rfl

theorem frame_length {event : TaskEvent} {task : Task} (h : LifecycleEvent event task) :
    (frameBytes (persistedEvent event)).length =
      escapedLength task.prompt + taskLength task + envelopeLength event + 9 := by
  rw [byteLength_frame, payloadDto_task h.payload]
  simp only [byteLength_object, List.map_cons, List.map_nil, List.sum_cons, List.sum_nil,
    byteLength_printString, byteLength_taskDto h.failure, show escapedLength "task" = 4 from rfl]
  omega

/-- Besides the prompt there are at most 691 bytes. -/
theorem frame_length_le {event : TaskEvent} {task : Task} (h : LifecycleEvent event task) :
    (frameBytes (persistedEvent event)).length ≤ escapedLength task.prompt + 691 := by
  have hid : digitCount event.id.get ≤ 19 :=
    digitCount_le (by decide) (Nat.lt_trans event.id.upper (by decide))
  have hlast : digitCount task.lastEventId.get ≤ 19 := h.lastEventId ▸ hid
  have hattempt : digitCount task.attempt.toNat ≤ 10 :=
    digitCount_le (by decide) (Nat.lt_trans task.attempt.toNat_lt (by decide))
  have hversion : digitCount event.schemaVersion = 1 := by rw [h.schemaVersion]; rfl
  have hname : (eventName event.kind).length ≤ 14 ∧ (taskStatusDto task.status).length ≤ 9 := by
    have hstate := h.wellFormed.state
    have hstatus := h.status
    have hpanel : event.kind.isPanel ≠ true := by
      rw [TaskEvent.kind, Ne, ← TaskEventPayload.task?_isNone_iff, h.payload]
      nofun
    unfold Task.stateIsValid at hstate
    cases hkind : event.kind <;> rw [hkind] at hstatus hpanel <;>
      rw [hstatus, h.failure] at hstate <;> rw [hstatus]
    all_goals first
      | exact ⟨by decide, by decide⟩
      | exact absurd rfl hpanel
      | simp [expectedStatus] at hstate
  rw [frame_length h, taskLength, envelopeLength]
  split <;> split <;> split <;> omega

/-- A task with the longest document for its prompt. -/
def longestTask (prompt : String) : Task :=
  { id := ⟨0⟩, clientRequestId := ⟨0⟩, repositoryId := ⟨0⟩, prompt, status := .completed
    attempt := 4294967295, retryOf := some ⟨1⟩, createdAt := .epoch, startedAt := some .epoch
    finishedAt := some .epoch, lastEventId := ⟨2 ^ 63 - 1, by decide, by decide⟩
    failure := none }

/-- The longest frame for a prompt. -/
def longestEvent (prompt : String) : TaskEvent :=
  .new ⟨2 ^ 63 - 1, by decide, by decide⟩ ⟨0⟩ (.taskCompleted (longestTask prompt)) .epoch

theorem lifecycle_longestEvent (prompt : String) :
    LifecycleEvent (longestEvent prompt) (longestTask prompt) where
  payload := rfl
  schemaVersion := rfl
  taskId := rfl
  status := rfl
  wellFormed := ⟨show (4294967295 : UInt32) ≠ 0 by decide, rfl⟩
  lastEventId := rfl
  failure := rfl

theorem longestEvent_length (prompt : String) :
    (frameBytes (persistedEvent (longestEvent prompt))).length = escapedLength prompt + 691 := by
  have htask : taskLength (longestTask prompt) = 453 := by
    have hattempt : digitCount (4294967295 : UInt32).toNat = 10 := by decide
    have hlast : digitCount (2 ^ 63 - 1) = 19 := by decide
    simp only [taskLength, longestTask, hattempt, hlast]
    rfl
  have henvelope : envelopeLength (longestEvent prompt) = 229 := by
    have hid : digitCount (2 ^ 63 - 1) = 19 := by decide
    have hversion : digitCount 1 = 1 := by decide
    have hname : (eventName .taskCompleted).length = 14 := by decide
    have hkind : (longestEvent prompt).kind = .taskCompleted := rfl
    rw [envelopeLength, hkind, hname]
    simp only [longestEvent, TaskEvent.new, hid, hversion]
  rw [frame_length (lifecycle_longestEvent prompt), htask, henvelope]
  rfl

/-- A character that is written with six bytes: a control character without an
escape of its own. -/
def isLongEscape (c : Char) : Bool :=
  c < ' ' ∧ c ∉ ['\x08', '\t', '\n', '\x0c', '\r']

theorem escapedSize_le {c : Char} (h : isLongEscape c = false) : escapedSize c ≤ 4 := by
  unfold escapedSize
  split_ifs with hm hc
  · decide
  · simp only [isLongEscape, decide_eq_false_iff_not, not_and, not_not] at h
    have hshort := h hc
    simp only [List.mem_cons, List.not_mem_nil, or_false] at hshort hm
    tauto
  · exact Char.utf8Size_le_four c

theorem sum_escapedSize_le {cs : List Char} (h : ∀ c ∈ cs, isLongEscape c = false) :
    (cs.map escapedSize).sum ≤ 4 * cs.length := by
  induction cs with
  | nil => exact Nat.le_refl 0
  | cons c cs ih =>
    obtain ⟨hc, hcs⟩ := List.forall_mem_cons.1 h
    have hsize := escapedSize_le hc
    have hrest := ih hcs
    rw [List.map_cons, List.sum_cons, List.length_cons]
    omega

/-- **Frames fit.** For a prompt that is accepted, the frame of every event of
the life of a task with it, a failure apart, is within the limit where its text
in JSON leaves 691 bytes of it; a prompt without long escapes does. -/
theorem frames_fit_iff {clientRequestId : ClientRequestId} {repositoryId : RepositoryId}
    {prompt : String} {new : NewTask}
    (h : NewTask.tryNew clientRequestId repositoryId prompt = .ok new) :
    ((∀ event task, LifecycleEvent event task → task.prompt = new.prompt → FrameFits event) ↔
      escapedLength new.prompt + 691 ≤ defaultMaxFrameBytes) ∧
    ((∀ c ∈ new.prompt.toList, isLongEscape c = false) →
      escapedLength new.prompt + 691 ≤ defaultMaxFrameBytes) := by
  refine ⟨⟨fun hfits => ?_, fun hle event task hlife hprompt => ?_⟩, fun hshort => ?_⟩
  · rw [← longestEvent_length]
    exact (hfits _ _ (lifecycle_longestEvent new.prompt) rfl).1
  · have hlength := frame_length_le hlife
    rw [hprompt] at hlength
    exact (frameFits_iff event).2 (Nat.le_trans hlength hle)
  · have hcount : new.prompt.toList.length ≤ 50000 := by
      simp only [NewTask.tryNew] at h
      split at h
      · cases h
      · cases h
        show (trim prompt).toList.length ≤ 50000
        omega
    have hsum := sum_escapedSize_le hshort
    rw [escapedLength, defaultMaxFrameBytes]
    omega

theorem trim_replicate {c : Char} (h : isWhiteSpace c = false) (n : Nat) :
    trim (String.ofList (List.replicate n c)) = String.ofList (List.replicate n c) := by
  have hdrop : (List.replicate n c).dropWhile isWhiteSpace = List.replicate n c := by
    cases n with
    | zero => rfl
    | succ n => rw [List.replicate_succ, List.dropWhile_cons_of_neg (by simp [h])]
  rw [trim, String.toList_ofList, hdrop, List.reverse_replicate, hdrop, List.reverse_replicate]

theorem frames_fit_sample : FrameFits (longestEvent "p") :=
  have hnew : NewTask.tryNew ⟨0⟩ ⟨0⟩ " p " = .ok ⟨⟨0⟩, ⟨0⟩, "p"⟩ := by decide
  (frames_fit_iff hnew).1.2 (by decide) _ _ (lifecycle_longestEvent "p") rfl

/-- A prompt of control characters is accepted, and the client refuses every
frame that carries it. -/
theorem controlPrompt_refused : ∃ new : NewTask,
    NewTask.tryNew ⟨0⟩ ⟨0⟩ (String.ofList (List.replicate 50000 '\x01')) = .ok new ∧
    (∃ event task, LifecycleEvent event task ∧ task.prompt = new.prompt) ∧
    ∀ event task, LifecycleEvent event task → task.prompt = new.prompt →
      defaultMaxFrameBytes < (frameBytes (persistedEvent event)).length ∧
      ∀ chunks : List (List UInt8), chunks.flatten = frameBytes (persistedEvent event) →
        (parseChunks defaultMaxFrameBytes chunks).error =
          some (.protocol (frameTooLarge defaultMaxFrameBytes)) := by
  have htrim := trim_replicate (show isWhiteSpace '\x01' = false by decide) 50000
  refine ⟨⟨⟨0⟩, ⟨0⟩, String.ofList (List.replicate 50000 '\x01')⟩, ?_,
    ⟨_, _, lifecycle_longestEvent _, rfl⟩, fun event task hlife hprompt => ?_⟩
  · rw [NewTask.tryNew, htrim]
    simp only [String.toList_ofList, List.length_replicate]
    rfl
  · have hsize : escapedSize '\x01' = 6 := by decide
    have hescaped : escapedLength task.prompt = 300000 := by
      rw [hprompt, escapedLength, String.toList_ofList, List.map_replicate, hsize,
        List.sum_replicate_nat]
    have hlarge : defaultMaxFrameBytes < (frameBytes (persistedEvent event)).length := by
      rw [frame_length hlife, hescaped, defaultMaxFrameBytes]
      omega
    refine ⟨hlarge, fun chunks hchunks => ?_⟩
    have hparse := parseChunks_event defaultMaxFrameBytes event hchunks
    rwa [if_pos hlarge] at hparse

end CodingAgent.L5.Web
