import CodingAgent.Core.TextDecoder
import CodingAgent.L5Web.SseFrame

/-!
# The incremental parser of the event stream (`web/src/api/sse.ts:47-257`)

`IncrementalSseParser` on bytes: its streaming decoder, the text that waits for
a line ending, the fields of the frame being read and the bytes it has. Strings
are texts: the decoder yields whole characters, and the line endings, colons
and spaces it is cut at are characters of one unit.

* `drainLines_append`: draining a text in pieces is draining it at once.
* `Parsed`, `Accepts`: what a parser has read, and the byte strings that are
  frames to their end; `push_ok`, `push_error` and `finish_ok_iff` say what a
  call does to them, `runFrom_spec` what a run does.
* `chunking_invariant`: how the bytes are cut does not matter.
-/
namespace CodingAgent.L5.Web
open Utf8

/-- `SseFrame`, as the parser yields it.
mirrors web/src/api/sse.ts:47-51 -/
structure RawFrame where
  event : List Char
  data : List Char
  id : Option (List Char)
  deriving DecidableEq, Repr

/-- The fields of the frame that is being read. -/
structure FrameFields where
  dataLines : List (List Char)
  eventName : List Char
  eventId : Option (List Char)
  frameBytes : Nat
  deriving DecidableEq, Repr

/-- mirrors web/src/api/sse.ts:61-70 -/
structure SseParser where
  decoder : TextDecoder
  pending : List Char
  fields : FrameFields
  finished : Bool
  deriving DecidableEq, Repr

/-- What a call throws. -/
inductive ParserError where
  | pushAfterFinish
  | protocol (error : SseProtocolError)
  deriving DecidableEq, Repr

def FrameFields.empty : FrameFields :=
  { dataLines := [], eventName := [], eventId := none, frameBytes := 0 }

def SseParser.new : SseParser :=
  { decoder := .new, pending := [], fields := .empty, finished := false }

/-- `encoder.encode(text).byteLength` -/
def byteLength (text : List Char) : Nat := (encode text).length

/-! ## Lines -/

/-- The text before the first line ending, the ending, and what follows it.
mirrors web/src/api/sse.ts:249-257 -/
def findLineEnding : List Char → Option (List Char × Char × List Char)
  | [] => none
  | c :: text =>
    if c = '\r' ∨ c = '\n' then some ([], c, text)
    else (findLineEnding text).map fun (line, ending, rest) => (c :: line, ending, rest)

/-- The next line, the length of its ending and what follows; a carriage return
that comes last waits for what follows it.
mirrors web/src/api/sse.ts:136-154 -/
def takeLine (finishing : Bool) (pending : List Char) : Option (List Char × Nat × List Char) :=
  match findLineEnding pending with
  | none => none
  | some (line, ending, rest) =>
    if ending = '\r' ∧ rest = [] ∧ finishing = false then none
    else if ending = '\r' ∧ rest.head? = some '\n' then some (line, 2, rest.tail)
    else some (line, 1, rest)

/-- mirrors web/src/api/sse.ts:220-226 -/
def makeFrame (fields : FrameFields) (data : List Char) : RawFrame :=
  { event := if fields.eventName = [] then "message".toList else fields.eventName
    data
    id := fields.eventId }

/-- mirrors web/src/api/sse.ts:194-217 -/
def consumeField (fields : FrameFields) (line : List Char) : FrameFields :=
  let field := line.takeWhile (· ≠ ':')
  let value := (line.dropWhile (· ≠ ':')).tail
  let value := if value.head? = some ' ' then value.tail else value
  if field = "data".toList then { fields with dataLines := fields.dataLines ++ [value] }
  else if field = "event".toList then { fields with eventName := value }
  else if field = "id".toList then
    if '\x00' ∈ value then fields else { fields with eventId := some value }
  else fields

/-- mirrors web/src/api/sse.ts:170-218 -/
def consumeLine (fields : FrameFields) (line : List Char) : FrameFields × Option RawFrame :=
  if line = [] then
    (.empty, if fields.dataLines = [] then none
      else some (makeFrame fields (List.intercalate ['\n'] fields.dataLines)))
  else if line.head? = some ':' then
    if fields.dataLines = [] ∧ fields.eventName = [] ∧ fields.eventId = none then
      ({ fields with frameBytes := 0 }, none)
    else (fields, none)
  else (consumeField fields line, none)

theorem findLineEnding_length {text line rest : List Char} {ending : Char}
    (h : findLineEnding text = some (line, ending, rest)) : rest.length < text.length := by
  induction text generalizing line with
  | nil => cases h
  | cons c text ih =>
    rw [findLineEnding] at h
    split at h
    · cases h
      exact Nat.lt_succ_self _
    · obtain ⟨⟨tail, found, after⟩, hfound, heq⟩ := Option.map_eq_some_iff.mp h
      cases heq
      exact Nat.lt_succ_of_lt (ih hfound)

theorem takeLine_length {finishing : Bool} {pending line rest : List Char} {n : Nat}
    (h : takeLine finishing pending = some (line, n, rest)) : rest.length < pending.length := by
  rw [takeLine] at h
  split at h
  · cases h
  · next found ending after hfound =>
    have hlt := findLineEnding_length hfound
    split_ifs at h
    · cases h
      rw [List.length_tail]
      omega
    · cases h
      exact hlt

/-- The limit is exceeded. -/
def frameTooLarge (maxFrameBytes : Nat) : SseProtocolError :=
  { code := .frameTooLarge, message := s!"SSE frame exceeded {maxFrameBytes} bytes" }

section
variable (maxFrameBytes : Nat)

/-- The loop over the lines: the fields and the text that are left, and the
frames.
mirrors web/src/api/sse.ts:133-168 -/
def drainLines (finishing : Bool) (fields : FrameFields) (pending : List Char) :
    Except SseProtocolError (FrameFields × List Char × List RawFrame) :=
  match _h : takeLine finishing pending with
  | none => .ok (fields, pending, [])
  | some (line, separatorLength, rest) =>
    let frameBytes := fields.frameBytes + byteLength line + separatorLength
    if maxFrameBytes < frameBytes then .error (frameTooLarge maxFrameBytes)
    else
      let (fields, frame) := consumeLine { fields with frameBytes } line
      match drainLines finishing fields rest with
      | .error error => .error error
      | .ok (fields, pending, frames) => .ok (fields, pending, frame.toList ++ frames)
termination_by pending.length
decreasing_by exact takeLine_length _h

/-- mirrors web/src/api/sse.ts:228-234 -/
def assertFrameSize (fields : FrameFields) (pending : List Char) : Except SseProtocolError Unit :=
  if maxFrameBytes < fields.frameBytes + byteLength pending then
    .error (frameTooLarge maxFrameBytes)
  else .ok ()

def malformedUtf8 : SseProtocolError :=
  { code := .malformedUtf8, message := "the SSE stream contained malformed UTF-8" }

/-- mirrors web/src/api/sse.ts:80-98 -/
def push (parser : SseParser) (chunk : List UInt8) :
    Except ParserError (SseParser × List RawFrame) :=
  if parser.finished then .error .pushAfterFinish
  else
    match parser.decoder.decode chunk with
    | none => .error (.protocol malformedUtf8)
    | some (decoder, text) =>
      match drainLines maxFrameBytes false parser.fields (parser.pending ++ text) with
      | .error error => .error (.protocol error)
      | .ok (fields, pending, frames) =>
        match assertFrameSize maxFrameBytes fields pending with
        | .error error => .error (.protocol error)
        | .ok () => .ok ({ parser with decoder, pending, fields }, frames)

/-- Something of a frame is left.
mirrors web/src/api/sse.ts:118-124 -/
def isTruncated (fields : FrameFields) (pending : List Char) : Bool :=
  pending ≠ [] || 0 < fields.frameBytes || fields.dataLines ≠ [] || fields.eventName ≠ [] ||
    fields.eventId ≠ none

/-- mirrors web/src/api/sse.ts:100-131 -/
def finish (parser : SseParser) : Except ParserError (SseParser × List RawFrame) :=
  if parser.finished then .ok (parser, [])
  else
    match parser.decoder.flush with
    | none => .error (.protocol { malformedUtf8 with
        message := "the SSE stream ended inside a UTF-8 sequence" })
    | some text =>
      match drainLines maxFrameBytes true parser.fields (parser.pending ++ text) with
      | .error error => .error (.protocol error)
      | .ok (fields, pending, frames) =>
        match assertFrameSize maxFrameBytes fields pending with
        | .error error => .error (.protocol error)
        | .ok () =>
          if isTruncated fields pending then
            .error (.protocol ⟨.truncatedFrame,
              "the SSE stream ended with a truncated frame before its blank line"⟩)
          else .ok ({ parser with decoder := .new, pending, fields, finished := true }, frames)

/-- What a run of the parser gives: the frames emitted before it threw, and what
it threw. -/
structure ParserRun where
  frames : List RawFrame
  error : Option ParserError
  deriving DecidableEq, Repr

/-- A `push` for each chunk, then `finish`. -/
def runFrom (parser : SseParser) : List (List UInt8) → ParserRun
  | [] =>
    match finish maxFrameBytes parser with
    | .error error => { frames := [], error := some error }
    | .ok (_, frames) => { frames, error := none }
  | chunk :: chunks =>
    match push maxFrameBytes parser chunk with
    | .error error => { frames := [], error := some error }
    | .ok (parser, frames) =>
      let run := runFrom parser chunks
      { run with frames := frames ++ run.frames }

end

/-- A new parser on the chunks. -/
def parseChunks (maxFrameBytes : Nat) (chunks : List (List UInt8)) : ParserRun :=
  runFrom maxFrameBytes .new chunks

theorem map_eq_ok {ε α β : Type} {x : Except ε α} {f : α → β} {b : β}
    (h : x.map f = .ok b) : ∃ a, x = .ok a ∧ f a = b := by
  cases x with
  | error _ => cases h
  | ok a => exact ⟨a, rfl, by injection h⟩

/-! ## Lines of a text in pieces -/

theorem findLineEnding_append {text line rest : List Char} {ending : Char} (more : List Char)
    (h : findLineEnding text = some (line, ending, rest)) :
    findLineEnding (text ++ more) = some (line, ending, rest ++ more) := by
  induction text generalizing line with
  | nil => cases h
  | cons c text ih =>
    rw [findLineEnding] at h
    rw [List.cons_append, findLineEnding]
    split_ifs at h ⊢
    · cases h
      rfl
    · obtain ⟨⟨tail, found, after⟩, hfound, heq⟩ := Option.map_eq_some_iff.mp h
      cases heq
      rw [ih hfound]
      rfl

/-- A text without a line ending is before the first one. -/
theorem findLineEnding_none_append {text more line rest : List Char} {ending : Char}
    (hnone : findLineEnding text = none)
    (h : findLineEnding (text ++ more) = some (line, ending, rest)) :
    ∃ tail, line = text ++ tail := by
  induction text generalizing line with
  | nil => exact ⟨line, rfl⟩
  | cons c text ih =>
    rw [findLineEnding] at hnone
    rw [List.cons_append, findLineEnding] at h
    split_ifs at hnone h
    obtain ⟨⟨tail, found, after⟩, hfound, heq⟩ := Option.map_eq_some_iff.mp h
    cases heq
    obtain ⟨suffix, hsuffix⟩ := ih (Option.map_eq_none_iff.mp hnone) hfound
    exact ⟨suffix, by rw [hsuffix, List.cons_append]⟩

theorem findLineEnding_eq {text line rest : List Char} {ending : Char}
    (h : findLineEnding text = some (line, ending, rest)) : text = line ++ ending :: rest := by
  induction text generalizing line with
  | nil => cases h
  | cons c text ih =>
    rw [findLineEnding] at h
    split_ifs at h
    · cases h
      rfl
    · obtain ⟨⟨tail, found, after⟩, hfound, heq⟩ := Option.map_eq_some_iff.mp h
      cases heq
      rw [ih hfound, List.cons_append]

theorem byteLength_append (a b : List Char) : byteLength (a ++ b) = byteLength a + byteLength b := by
  simp [byteLength, encode]

theorem takeLine_of_find {pending line rest : List Char} {ending : Char} (finishing : Bool)
    (h : findLineEnding pending = some (line, ending, rest)) :
    takeLine finishing pending =
      if ending = '\r' ∧ rest = [] ∧ finishing = false then none
      else if ending = '\r' ∧ rest.head? = some '\n' then some (line, 2, rest.tail)
      else some (line, 1, rest) := by
  rw [takeLine, h]

theorem takeLine_of_none {pending : List Char} (finishing : Bool)
    (h : findLineEnding pending = none) : takeLine finishing pending = none := by
  rw [takeLine, h]

/-- A complete line is the next line of every longer text. -/
theorem takeLine_append {pending line rest : List Char} {n : Nat} (finishing : Bool)
    (more : List Char) (h : takeLine false pending = some (line, n, rest)) :
    takeLine finishing (pending ++ more) = some (line, n, rest ++ more) := by
  cases hfound : findLineEnding pending with
  | none => rw [takeLine_of_none false hfound] at h; cases h
  | some first =>
    obtain ⟨found, ending, after⟩ := first
    rw [takeLine_of_find false hfound] at h
    rw [takeLine_of_find finishing (findLineEnding_append more hfound)]
    cases after with
    | nil =>
      split_ifs at h with hwait hcrlf
      · cases hcrlf.2
      · cases h
        have hending : ending ≠ '\r' := fun heq => hwait ⟨heq, rfl, rfl⟩
        rw [if_neg fun hc => hending hc.1, if_neg fun hc => hending hc.1]
    | cons next after =>
      rw [if_neg fun hc => by cases hc.2.1] at h ⊢
      split_ifs at h with hcrlf
      · cases h
        rw [if_pos ⟨hcrlf.1, hcrlf.2⟩]
        rfl
      · cases h
        rw [if_neg fun hc => hcrlf ⟨hc.1, hc.2⟩]

/-- What waits for its line ending is in the next line, or is its ending. -/
theorem takeLine_none_append {pending more line rest : List Char} {n : Nat} {finishing : Bool}
    (hnone : takeLine false pending = none)
    (h : takeLine finishing (pending ++ more) = some (line, n, rest)) :
    byteLength pending ≤ byteLength line + n := by
  cases hfound : findLineEnding pending with
  | none =>
    cases hlater : findLineEnding (pending ++ more) with
    | none => rw [takeLine_of_none finishing hlater] at h; cases h
    | some first =>
      obtain ⟨found, ending, after⟩ := first
      obtain ⟨tail, rfl⟩ := findLineEnding_none_append hfound hlater
      have hlength := byteLength_append pending tail
      rw [takeLine_of_find finishing hlater] at h
      split_ifs at h <;> cases h <;> omega
  | some first =>
    obtain ⟨found, ending, after⟩ := first
    rw [takeLine_of_find false hfound] at hnone
    split_ifs at hnone with hwait
    obtain ⟨rfl, rfl, -⟩ := hwait
    have hlength : byteLength pending = byteLength found + 1 := by
      rw [findLineEnding_eq hfound, byteLength_append]
      rfl
    rw [takeLine_of_find finishing (findLineEnding_append more hfound)] at h
    split_ifs at h <;> cases h <;> omega

section
variable {maxFrameBytes : Nat}

theorem drainLines_of_none {finishing : Bool} {fields : FrameFields} {pending : List Char}
    (h : takeLine finishing pending = none) :
    drainLines maxFrameBytes finishing fields pending = .ok (fields, pending, []) := by
  rw [drainLines]
  split
  · rfl
  · next hline => rw [h] at hline; cases hline

theorem drainLines_of_some {finishing : Bool} {fields : FrameFields}
    {pending line rest : List Char} {n : Nat}
    (h : takeLine finishing pending = some (line, n, rest)) :
    drainLines maxFrameBytes finishing fields pending =
      if maxFrameBytes < fields.frameBytes + byteLength line + n then
        .error (frameTooLarge maxFrameBytes)
      else
        let consumed := consumeLine
          { fields with frameBytes := fields.frameBytes + byteLength line + n } line
        (drainLines maxFrameBytes finishing consumed.1 rest).map fun (fields, pending, frames) =>
          (fields, pending, consumed.2.toList ++ frames) := by
  rw [drainLines]
  split
  · next hline => rw [h] at hline; cases hline
  · next line' n' rest' hline =>
    rw [h] at hline
    cases hline
    dsimp only
    split
    · rfl
    · cases drainLines maxFrameBytes finishing _ rest <;> rfl

/-- **A text is drained in pieces as it is at once**: the complete lines of the
first piece, then what is left of it before the second. -/
theorem drainLines_append (finishing : Bool) (fields : FrameFields) (pending more : List Char) :
    drainLines maxFrameBytes finishing fields (pending ++ more) =
      (drainLines maxFrameBytes false fields pending).bind fun (fields, pending, frames) =>
        (drainLines maxFrameBytes finishing fields (pending ++ more)).map
          fun (fields, pending, later) => (fields, pending, frames ++ later) := by
  induction hlength : pending.length using Nat.strongRecOn generalizing fields pending with
  | ind length ih =>
    cases hline : takeLine false pending with
    | none =>
      rw [drainLines_of_none hline]
      simp only [Except.bind]
      cases drainLines maxFrameBytes finishing fields (pending ++ more) <;> rfl
    | some first =>
      obtain ⟨line, n, rest⟩ := first
      rw [drainLines_of_some hline, drainLines_of_some (takeLine_append finishing more hline)]
      split
      · rfl
      · have hrest := takeLine_length hline
        dsimp only
        rw [ih rest.length (by omega) _ rest rfl]
        cases drainLines maxFrameBytes false _ rest with
        | error _ => rfl
        | ok drained =>
          obtain ⟨fields', pending', frames⟩ := drained
          simp only [Except.map, Except.bind]
          cases drainLines maxFrameBytes finishing fields' (pending' ++ more) with
          | error _ => rfl
          | ok _ => simp only [List.append_assoc]

/-- No complete line is left. -/
theorem drainLines_left {fields fields' : FrameFields} {pending pending' : List Char}
    {frames : List RawFrame}
    (h : drainLines maxFrameBytes false fields pending = .ok (fields', pending', frames)) :
    takeLine false pending' = none := by
  induction hlength : pending.length using Nat.strongRecOn
    generalizing fields pending frames with
  | ind length ih =>
    cases hline : takeLine false pending with
    | none =>
      rw [drainLines_of_none hline] at h
      cases h
      exact hline
    | some first =>
      obtain ⟨line, n, rest⟩ := first
      rw [drainLines_of_some hline] at h
      split at h
      · cases h
      · have hrest := takeLine_length hline
        dsimp only at h
        obtain ⟨drained, hdrained, heq⟩ := map_eq_ok h
        cases heq
        exact ih rest.length (by omega) hdrained rfl

/-- What is too large without its line ending is too large with it. -/
theorem drainLines_too_large {finishing : Bool} {fields fields' : FrameFields}
    {pending more : List Char} {frames : List RawFrame} (hline : takeLine false pending = none)
    (hsize : maxFrameBytes < fields.frameBytes + byteLength pending)
    (h : drainLines maxFrameBytes finishing fields (pending ++ more) =
      .ok (fields', [], frames)) : fields' ≠ .empty := by
  cases hnext : takeLine finishing (pending ++ more) with
  | none =>
    rw [drainLines_of_none hnext] at h
    simp only [Except.ok.injEq, Prod.mk.injEq, List.append_eq_nil_iff] at h
    obtain ⟨rfl, ⟨rfl, -⟩, -⟩ := h
    rintro rfl
    exact absurd hsize (Nat.not_lt_zero _)
  | some first =>
    obtain ⟨line, n, rest⟩ := first
    have hbytes := takeLine_none_append hline hnext
    rw [drainLines_of_some hnext, if_pos (by omega)] at h
    cases h

/-! ## What a parser has read -/

/-- The frames of the complete lines of some bytes. -/
def Drained (maxFrameBytes : Nat) (bytes : List UInt8) (frames : List RawFrame) : Prop :=
  ∃ decoder text fields pending,
    TextDecoder.new.decode bytes = some (decoder, text) ∧
    drainLines maxFrameBytes false .empty text = .ok (fields, pending, frames)

/-- The parser after some bytes, and the frames that it has emitted. -/
structure Parsed (maxFrameBytes : Nat) (bytes : List UInt8) (parser : SseParser)
    (frames : List RawFrame) : Prop where
  running : parser.finished = false
  read : ∃ text, TextDecoder.new.decode bytes = some (parser.decoder, text) ∧
    drainLines maxFrameBytes false .empty text = .ok (parser.fields, parser.pending, frames)

/-- Bytes that are frames from the first to the last. -/
def Accepts (maxFrameBytes : Nat) (bytes : List UInt8) (frames : List RawFrame) : Prop :=
  ∃ decoder text, TextDecoder.new.decode bytes = some (decoder, text) ∧ decoder.waiting = [] ∧
    drainLines maxFrameBytes true .empty text = .ok (.empty, [], frames)

theorem Parsed.drained {bytes : List UInt8} {parser : SseParser} {frames : List RawFrame}
    (h : Parsed maxFrameBytes bytes parser frames) : Drained maxFrameBytes bytes frames :=
  let ⟨text, hdecode, hdrain⟩ := h.read
  ⟨_, text, _, _, hdecode, hdrain⟩

theorem parsed_new (maxFrameBytes : Nat) : Parsed maxFrameBytes [] .new [] :=
  ⟨rfl, [], rfl, drainLines_of_none rfl⟩

/-- The same bytes give the same frames. -/
theorem Accepts.frames_eq {bytes : List UInt8} {frames frames' : List RawFrame}
    (h : Accepts maxFrameBytes bytes frames) (h' : Accepts maxFrameBytes bytes frames') :
    frames = frames' := by
  obtain ⟨decoder, text, hdecode, -, hdrain⟩ := h
  obtain ⟨decoder', text', hdecode', -, hdrain'⟩ := h'
  rw [hdecode] at hdecode'
  cases hdecode'
  rw [hdrain] at hdrain'
  cases hdrain'
  rfl

/-- More bytes give more frames. -/
theorem Drained.more {bytes more : List UInt8} {frames frames' : List RawFrame}
    (h : Drained maxFrameBytes bytes frames) (h' : Drained maxFrameBytes (bytes ++ more) frames') :
    frames <+: frames' := by
  obtain ⟨decoder, text, fields, pending, hdecode, hdrain⟩ := h
  obtain ⟨decoder', text', fields', pending', hdecode', hdrain'⟩ := h'
  rw [TextDecoder.decode_append, hdecode, Option.bind_some] at hdecode'
  obtain ⟨⟨later, rest⟩, hrest, heq⟩ := Option.map_eq_some_iff.mp hdecode'
  cases heq
  rw [drainLines_append, hdrain] at hdrain'
  obtain ⟨drained, -, heq⟩ := map_eq_ok hdrain'
  cases heq
  exact List.prefix_append _ _

theorem accepts_append {bytes more : List UInt8} {parser : SseParser}
    {frames all : List RawFrame} (hparsed : Parsed maxFrameBytes bytes parser frames)
    (h : Accepts maxFrameBytes (bytes ++ more) all) :
    ∃ decoder text later, parser.decoder.decode more = some (decoder, text) ∧
      decoder.waiting = [] ∧ all = frames ++ later ∧
      drainLines maxFrameBytes true parser.fields (parser.pending ++ text) =
        .ok (.empty, [], later) := by
  obtain ⟨text, hdecode, hdrain⟩ := hparsed.read
  obtain ⟨decoder, whole, hwhole, hwaiting, haccepts⟩ := h
  rw [TextDecoder.decode_append, hdecode, Option.bind_some] at hwhole
  obtain ⟨⟨later, rest⟩, hrest, heq⟩ := Option.map_eq_some_iff.mp hwhole
  cases heq
  rw [drainLines_append, hdrain] at haccepts
  obtain ⟨⟨fields, pending, found⟩, hlater, heq⟩ := map_eq_ok haccepts
  cases heq
  exact ⟨_, rest, _, hrest, hwaiting, rfl, hlater⟩

theorem push_ok {bytes chunk : List UInt8} {parser parser' : SseParser}
    {frames later : List RawFrame} (hparsed : Parsed maxFrameBytes bytes parser frames)
    (h : push maxFrameBytes parser chunk = .ok (parser', later)) :
    Parsed maxFrameBytes (bytes ++ chunk) parser' (frames ++ later) := by
  obtain ⟨text, hdecode, hdrain⟩ := hparsed.read
  rw [push, hparsed.running, if_neg Bool.false_ne_true] at h
  cases hchunk : parser.decoder.decode chunk with
  | none => rw [hchunk] at h; cases h
  | some decoded =>
    obtain ⟨decoder, rest⟩ := decoded
    simp only [hchunk] at h
    cases hlater : drainLines maxFrameBytes false parser.fields (parser.pending ++ rest) with
    | error _ => rw [hlater] at h; cases h
    | ok drained =>
      obtain ⟨fields, pending, found⟩ := drained
      simp only [hlater] at h
      cases hsize : assertFrameSize maxFrameBytes fields pending with
      | error _ => rw [hsize] at h; cases h
      | ok _ =>
        rw [hsize] at h
        cases h
        refine ⟨rfl, text ++ rest, ?_, ?_⟩
        · simp only [TextDecoder.decode_append, hdecode, Option.bind_some, hchunk, Option.map_some]
        · rw [drainLines_append, hdrain]
          simp only [Except.bind, hlater]
          rfl

/-- A `push` that throws: no bytes after it make the stream whole. -/
theorem push_error {bytes chunk : List UInt8} {parser : SseParser} {frames : List RawFrame}
    {error : ParserError} (hparsed : Parsed maxFrameBytes bytes parser frames)
    (h : push maxFrameBytes parser chunk = .error error) (rest : List UInt8)
    (all : List RawFrame) : ¬Accepts maxFrameBytes (bytes ++ (chunk ++ rest)) all := by
  intro haccepts
  obtain ⟨decoder, text, later, hdecode, -, -, hdrain⟩ := accepts_append hparsed haccepts
  rw [TextDecoder.decode_append] at hdecode
  rw [push, hparsed.running, if_neg Bool.false_ne_true] at h
  cases hchunk : parser.decoder.decode chunk with
  | none => rw [hchunk] at hdecode; cases hdecode
  | some decoded =>
    obtain ⟨middle, first⟩ := decoded
    simp only [hchunk, Option.bind_some] at h hdecode
    obtain ⟨⟨last, more⟩, -, heq⟩ := Option.map_eq_some_iff.mp hdecode
    cases heq
    rw [← List.append_assoc, drainLines_append] at hdrain
    cases hfirst : drainLines maxFrameBytes false parser.fields (parser.pending ++ first) with
    | error _ => rw [hfirst] at hdrain; cases hdrain
    | ok drained =>
      obtain ⟨fields, pending, found⟩ := drained
      simp only [hfirst] at h hdrain
      rw [assertFrameSize] at h
      split_ifs at h with hsize
      obtain ⟨⟨fields', pending', rest'⟩, hmore, heq⟩ := map_eq_ok hdrain
      cases heq
      exact drainLines_too_large (drainLines_left hfirst) hsize hmore rfl

theorem isTruncated_iff (fields : FrameFields) (pending : List Char) :
    isTruncated fields pending = false ↔ fields = .empty ∧ pending = [] := by
  obtain ⟨dataLines, eventName, eventId, frameBytes⟩ := fields
  simp [isTruncated, FrameFields.empty, FrameFields.mk.injEq]
  tauto

/-- **`finish` returns where the bytes are frames from the first to the last.** -/
theorem finish_ok_iff {bytes : List UInt8} {parser : SseParser} {frames : List RawFrame}
    (hparsed : Parsed maxFrameBytes bytes parser frames) (later : List RawFrame) :
    (∃ parser', finish maxFrameBytes parser = .ok (parser', later)) ↔
      Accepts maxFrameBytes bytes (frames ++ later) := by
  constructor
  · rintro ⟨parser', h⟩
    obtain ⟨text, hdecode, hdrain⟩ := hparsed.read
    rw [finish, hparsed.running, if_neg Bool.false_ne_true, TextDecoder.flush] at h
    split_ifs at h with hwaiting
    simp only [List.append_nil] at h
    cases hlater : drainLines maxFrameBytes true parser.fields parser.pending with
    | error _ => rw [hlater] at h; cases h
    | ok drained =>
      obtain ⟨fields, pending, found⟩ := drained
      simp only [hlater] at h
      cases hsize : assertFrameSize maxFrameBytes fields pending with
      | error _ => rw [hsize] at h; cases h
      | ok _ =>
        simp only [hsize] at h
        split_ifs at h with htruncated
        cases h
        obtain ⟨rfl, rfl⟩ := (isTruncated_iff _ _).mp (Bool.eq_false_iff.mpr htruncated)
        refine ⟨_, text, hdecode, hwaiting, ?_⟩
        rw [← List.append_nil text, drainLines_append, hdrain]
        simp only [Except.bind, List.append_nil, hlater]
        rfl
  · intro haccepts
    rw [← List.append_nil bytes] at haccepts
    obtain ⟨decoder, text, rest, hdecode, hwaiting, heq, hdrain⟩ := accepts_append hparsed haccepts
    rw [TextDecoder.decode_nil] at hdecode
    cases hdecode
    obtain rfl := List.append_cancel_left heq
    have hsize : assertFrameSize maxFrameBytes .empty [] = .ok () :=
      if_neg (Nat.not_lt_zero _)
    refine ⟨{ parser with decoder := .new, pending := [], fields := .empty, finished := true }, ?_⟩
    rw [finish, hparsed.running, if_neg Bool.false_ne_true, TextDecoder.flush, if_pos hwaiting]
    simp only [hdrain, hsize]
    rfl

/-- What a run gives: it ends without a throw where the bytes are frames from
the first to the last, and otherwise it has emitted the frames of some of the
first bytes. -/
theorem runFrom_spec {bytes : List UInt8} {parser : SseParser} {frames : List RawFrame}
    (hparsed : Parsed maxFrameBytes bytes parser frames) (chunks : List (List UInt8)) :
    let run := runFrom maxFrameBytes parser chunks
    (run.error = none ∧ Accepts maxFrameBytes (bytes ++ chunks.flatten) (frames ++ run.frames)) ∨
      (run.error ≠ none ∧ (∀ all, ¬Accepts maxFrameBytes (bytes ++ chunks.flatten) all) ∧
        ∃ read, read <+: bytes ++ chunks.flatten ∧
          Drained maxFrameBytes read (frames ++ run.frames)) := by
  induction chunks generalizing bytes parser frames with
  | nil =>
    simp only [runFrom, List.flatten_nil, List.append_nil]
    cases hfinish : finish maxFrameBytes parser with
    | ok result => exact .inl ⟨rfl, (finish_ok_iff hparsed _).mp ⟨_, hfinish⟩⟩
    | error error =>
      refine .inr ⟨by simp, fun all haccepts => ?_, bytes, List.prefix_rfl, ?_⟩
      · obtain ⟨_, _, later, _, _, rfl, _⟩ :=
          accepts_append hparsed (by rwa [List.append_nil] : Accepts _ (bytes ++ []) all)
        obtain ⟨parser', hok⟩ := (finish_ok_iff hparsed later).mpr haccepts
        rw [hfinish] at hok
        cases hok
      · rw [List.append_nil]
        exact hparsed.drained
  | cons chunk chunks ih =>
    simp only [runFrom, List.flatten_cons]
    cases hpush : push maxFrameBytes parser chunk with
    | ok result =>
      have hrest := ih (push_ok hparsed hpush)
      simpa only [List.append_assoc] using hrest
    | error error =>
      refine .inr ⟨by simp, push_error hparsed hpush chunks.flatten, bytes,
        List.prefix_append _ _, ?_⟩
      rw [List.append_nil]
      exact hparsed.drained

end

/-- **Chunking invariance.** However the bytes are cut: no run throws and the
frames are the same, or every run throws and the frames emitted before the throw
of one are the first frames of the other. -/
theorem chunking_invariant (maxFrameBytes : Nat) {chunks chunks' : List (List UInt8)}
    (h : chunks.flatten = chunks'.flatten) :
    let run := parseChunks maxFrameBytes chunks
    let run' := parseChunks maxFrameBytes chunks'
    (run.error = none ∧ run'.error = none ∧ run.frames = run'.frames) ∨
      (run.error ≠ none ∧ run'.error ≠ none ∧
        (run.frames <+: run'.frames ∨ run'.frames <+: run.frames)) := by
  have hrun := runFrom_spec (parsed_new maxFrameBytes) chunks
  have hrun' := runFrom_spec (parsed_new maxFrameBytes) chunks'
  simp only [List.nil_append, ← h] at hrun hrun'
  obtain ⟨hnone, haccepts⟩ | ⟨hsome, hrefused, read, hread, hdrained⟩ := hrun
  · obtain ⟨hnone', haccepts'⟩ | ⟨-, hrefused', -⟩ := hrun'
    · exact .inl ⟨hnone, hnone', haccepts.frames_eq haccepts'⟩
    · exact absurd haccepts (hrefused' _)
  · obtain ⟨-, haccepts'⟩ | ⟨hsome', -, read', hread', hdrained'⟩ := hrun'
    · exact absurd haccepts' (hrefused _)
    · refine .inr ⟨hsome, hsome', ?_⟩
      obtain ⟨more, rfl⟩ | ⟨more, rfl⟩ := List.prefix_or_prefix_of_prefix hread hread'
      · exact .inl (hdrained.more hdrained')
      · exact .inr (hdrained'.more hdrained)

/-- A byte-order mark, a character and a CRLF that are cut. -/
theorem chunking_invariant_sample :
    let run := parseChunks 64 [[0xEF, 0xBB, 0xBF, 0x64, 0x61, 0x74, 0x61, 0x3A, 0x20, 0xC3, 0xA9,
      0x0D, 0x0A, 0x0D, 0x0A]]
    let run' := parseChunks 64 [[0xEF], [0xBB, 0xBF, 0x64, 0x61], [], [0x74, 0x61, 0x3A, 0x20, 0xC3],
      [0xA9, 0x0D], [0x0A, 0x0D], [0x0A]]
    (run.error = none ∧ run'.error = none ∧ run.frames = run'.frames) ∨
      (run.error ≠ none ∧ run'.error ≠ none ∧
        (run.frames <+: run'.frames ∨ run'.frames <+: run.frames)) :=
  chunking_invariant 64 rfl

end CodingAgent.L5.Web
