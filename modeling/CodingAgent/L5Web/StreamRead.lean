import CodingAgent.L3Api.Replay
import CodingAgent.L3Api.StreamFrames
import CodingAgent.L5Web.SseDecode

/-!
# A connection, as the client reads it

The bytes of a connection (`coding-agent-api/src/sse.rs`) up to where it is
cut, in any chunks, against the parser and the decoder of the client
(`web/src/api/sse.ts`).

* `drainLines_stream`, `drainLines_part`: frames that are whole, and one that
  is not.
* `stream_read`: the client reads the frames that have arrived whole, and no
  others.
* `connection_read`: so the events it reads of a connection are the first ones
  of the log after its cursor.
-/
namespace CodingAgent.L5.Web
open CodingAgent.L1.Domain CodingAgent.L3.Api Utf8 Json

section
variable {maxFrameBytes : Nat}

/-! ## The frames of a stream -/

def controlFrame (name : String) (value : List (String × Json)) : RawFrame where
  event := name.toList
  data := (Json.object value).print
  id := none

/-- What the parser makes of a frame; a comment is nothing. -/
def rawFrames : L3.Api.SseFrame → List RawFrame
  | .serviceState control => [controlFrame "service.state" (serviceStateControl control)]
  | .heartbeat => []
  | .event e => [rawFrame e]
  | .reset latestEventId => [controlFrame "stream.reset" (streamResetControl latestEventId)]

/-- The frame is not too large. -/
def Fits (maxFrameBytes : Nat) (frame : L3.Api.SseFrame) : Prop :=
  byteLength (frameText frame) ≤ maxFrameBytes

instance (frame : L3.Api.SseFrame) : Decidable (Fits maxFrameBytes frame) :=
  inferInstanceAs (Decidable (_ ≤ _))

theorem isField_controlEvent {name : String} {value : List (String × Json)}
    (hname : OneLine name.toList) (hvalue : Plain (.object value)) :
    ∀ line ∈ [eventField "event".toList name.toList,
      eventField "data".toList (Json.object value).print], IsField line := by
  simp only [List.forall_mem_cons]
  refine ⟨?_, ?_, fun _ hline => absurd hline List.not_mem_nil⟩
  · exact isField_eventField (by decide) (by decide) (by decide) hname
  · exact isField_eventField (by decide) (by decide) (by decide) (oneLine_print _ hvalue)

theorem frameOf_controlEvent {name : String} {value : List (String × Json)} (hname : name ≠ "") :
    frameOf ([eventField "event".toList name.toList,
      eventField "data".toList (Json.object value).print].foldl consumeField .empty) =
      [controlFrame name value] := by
  have hne : name.toList ≠ [] := fun h => hname (String.toList_eq_nil_iff.1 h)
  simp only [List.foldl_cons, List.foldl_nil, consumeField_event, consumeField_data]
  simp [frameOf, makeFrame, FrameFields.empty, controlFrame, hne]

/-- A frame of fields is drained whole. -/
theorem drainLines_frame {lines : List (List Char)} (h : ∀ line ∈ lines, IsField line)
    (finishing : Bool)
    (hsize : byteLength ((lines ++ [[]]).flatMap (· ++ ['\n'])) ≤ maxFrameBytes) :
    drainLines maxFrameBytes finishing .empty ((lines ++ [[]]).flatMap (· ++ ['\n'])) =
      .ok (.empty, [], frameOf (lines.foldl consumeField .empty)) := by
  rw [drainLines_fields maxFrameBytes h]
  exact if_neg (by simpa [FrameFields.empty] using hsize)

/-- A heartbeat leaves nothing behind. -/
theorem drainLines_heartbeat (finishing : Bool) (hsize : Fits maxFrameBytes .heartbeat) :
    drainLines maxFrameBytes finishing .empty (frameText .heartbeat) = .ok (.empty, [], []) := by
  have htext : frameText .heartbeat = eventField [] "heartbeat".toList ++ '\n' :: ['\n'] := rfl
  have hline : OneLine (eventField [] "heartbeat".toList) := by decide
  have hbytes : byteLength (eventField [] "heartbeat".toList) = 11 := by decide
  have hfits : 13 ≤ maxFrameBytes := hsize
  have hblank : takeLine finishing ['\n'] = some ([], 1, []) := rfl
  have hnone : takeLine finishing [] = none := rfl
  have hcomment : consumeLine { FrameFields.empty with frameBytes := 12 }
      (eventField [] "heartbeat".toList) = (.empty, none) := by decide
  have hrest : drainLines maxFrameBytes finishing .empty ['\n'] = .ok (.empty, [], []) := by
    rw [drainLines_of_some hblank, if_neg (by simp [FrameFields.empty]; omega)]
    simp [consumeLine, drainLines_of_none hnone, FrameFields.empty, Except.map]
  rw [htext, drainLines_of_some (takeLine_line hline finishing _), hbytes,
    if_neg (by simp [FrameFields.empty]; omega)]
  show Except.map _ (drainLines maxFrameBytes finishing (consumeLine _ _).1 ['\n']) = _
  rw [show FrameFields.empty.frameBytes + 11 + 1 = 12 from rfl, hcomment, hrest]
  rfl

theorem drainLines_whole (finishing : Bool) {frame : L3.Api.SseFrame}
    (h : Fits maxFrameBytes frame) :
    drainLines maxFrameBytes finishing .empty (frameText frame) =
      .ok (.empty, [], rawFrames frame) := by
  cases frame with
  | serviceState control =>
    have hname : OneLine "service.state".toList := by decide
    have hlines := isField_controlEvent hname (plain_serviceStateControl control)
    refine (drainLines_frame hlines finishing h).trans ?_
    rw [frameOf_controlEvent (by decide)]
    rfl
  | heartbeat => exact drainLines_heartbeat finishing h
  | event e =>
    refine (drainLines_frame (isField_persistedEvent e) finishing h).trans ?_
    rw [frameOf_persistedEvent]
    rfl
  | reset latestEventId =>
    have hname : OneLine "stream.reset".toList := by decide
    have hlines := isField_controlEvent hname (plain_streamResetControl latestEventId)
    refine (drainLines_frame hlines finishing h).trans ?_
    rw [frameOf_controlEvent (by decide)]
    rfl

/-- Frames one after the other. -/
theorem drainLines_stream (finishing : Bool) {frames : List L3.Api.SseFrame}
    (h : ∀ frame ∈ frames, Fits maxFrameBytes frame) (more : List Char) :
    drainLines maxFrameBytes finishing .empty (streamText frames ++ more) =
      (drainLines maxFrameBytes finishing .empty more).map fun (fields, pending, later) =>
        (fields, pending, frames.flatMap rawFrames ++ later) := by
  induction frames with
  | nil =>
    rw [show streamText [] ++ more = more from rfl]
    cases drainLines maxFrameBytes finishing .empty more <;> rfl
  | cons frame frames ih =>
    rw [List.forall_mem_cons] at h
    rw [streamText_cons, List.append_assoc, drainLines_append, drainLines_whole false h.1]
    simp only [Except.bind, List.nil_append]
    rw [ih h.2]
    cases drainLines maxFrameBytes finishing .empty more with
    | error _ => rfl
    | ok _ => simp [Except.map]

/-! ## A frame that is not whole -/

theorem findLineEnding_oneLine {line : List Char} (h : OneLine line) :
    findLineEnding line = none := by
  induction line with
  | nil => rfl
  | cons c line ih =>
    rw [oneLine_cons] at h
    rw [findLineEnding, if_neg (by simp [h.1]), ih h.2]
    rfl

/-- A line that is not blank gives no frame. -/
theorem consumeLine_text {line : List Char} (h : line ≠ []) (fields : FrameFields) :
    ∃ fields', consumeLine fields line = (fields', none) ∧
      fields'.frameBytes ≤ fields.frameBytes := by
  unfold consumeLine
  rw [if_neg h]
  split
  · split
    · exact ⟨_, rfl, Nat.zero_le _⟩
    · exact ⟨_, rfl, Nat.le_refl _⟩
  · refine ⟨_, rfl, ?_⟩
    unfold consumeField
    simp only
    split_ifs <;> exact Nat.le_refl _

/-- A part of a text with a line: the line is in it, or it is in the line. -/
theorem line_cases {line text part rest : List Char} (h : line ++ '\n' :: text = part ++ rest) :
    (∃ left, part = line ++ '\n' :: left ∧ text = left ++ rest) ∨ ∃ tail, line = part ++ tail := by
  rcases List.append_eq_append_iff.1 h with ⟨left, rfl, hleft⟩ | ⟨tail, rfl, -⟩
  · rcases left with _ | ⟨c, left⟩
    · exact .inr ⟨[], by simp⟩
    · obtain ⟨rfl, rfl⟩ := List.cons.inj hleft
      exact .inl ⟨left, rfl, rfl⟩
  · exact .inr ⟨tail, rfl⟩

/-- What has come of a frame before its last line ending gives no frame: by
induction on the lines, with the bytes so far. -/
theorem drainLines_part (finishing : Bool) {lines : List (List Char)}
    (h : ∀ line ∈ lines, line ≠ [] ∧ OneLine line) {part rest : List Char}
    (htext : (lines ++ [[]]).flatMap (· ++ ['\n']) = part ++ rest) (hrest : rest ≠ [])
    (fields : FrameFields)
    (hsize : fields.frameBytes + byteLength ((lines ++ [[]]).flatMap (· ++ ['\n'])) ≤
      maxFrameBytes) :
    ∃ fields' pending, drainLines maxFrameBytes finishing fields part =
      .ok (fields', pending, []) := by
  induction lines generalizing part fields with
  | nil =>
    have hblank : [] ++ '\n' :: [] = part ++ rest := htext
    rcases line_cases hblank with ⟨left, -, hleft⟩ | ⟨tail, htail⟩
    · exact absurd (List.append_eq_nil_iff.1 hleft.symm).2 hrest
    · obtain rfl := (List.append_eq_nil_iff.1 htail.symm).1
      exact ⟨fields, [], drainLines_of_none rfl⟩
  | cons line lines ih =>
    rw [List.forall_mem_cons] at h
    obtain ⟨⟨hne, hline⟩, hlines⟩ := h
    have hcons : ((line :: lines) ++ [[]]).flatMap (· ++ ['\n']) =
        line ++ '\n' :: (lines ++ [[]]).flatMap (· ++ ['\n']) := by simp
    rw [hcons] at htext hsize
    rw [byteLength_append, byteLength_cons] at hsize
    have hend : '\n'.utf8Size = 1 := rfl
    rcases line_cases htext with ⟨left, rfl, hleft⟩ | ⟨tail, rfl⟩
    · obtain ⟨fields', hconsume, hbytes⟩ := consumeLine_text hne
        { fields with frameBytes := fields.frameBytes + byteLength line + 1 }
      simp only at hbytes
      obtain ⟨last, pending, hlast⟩ := ih hlines hleft fields' (by omega)
      refine ⟨last, pending, ?_⟩
      rw [drainLines_of_some (takeLine_line hline finishing left), if_neg (by omega)]
      simp only [hconsume, hlast]
      rfl
    · have hnone := findLineEnding_oneLine (oneLine_append.1 hline).1
      exact ⟨fields, part, drainLines_of_none (takeLine_of_none finishing hnone)⟩

/-- The lines of a frame before the blank one. -/
theorem frameLines_split (frame : L3.Api.SseFrame) : ∃ lines, frameLines frame = lines ++ [[]] ∧
    ∀ line ∈ lines, line ≠ [] ∧ OneLine line := by
  have hfields : ∀ {lines : List (List Char)}, (∀ line ∈ lines, IsField line) →
      ∀ line ∈ lines, line ≠ [] ∧ OneLine line := fun h line hline =>
    ⟨(h line hline).ne_nil, (h line hline).oneLine⟩
  cases frame with
  | serviceState control =>
    exact ⟨_, rfl, hfields (isField_controlEvent (by decide) (plain_serviceStateControl control))⟩
  | heartbeat => exact ⟨[eventField [] "heartbeat".toList], rfl, by decide⟩
  | event e => exact ⟨_, rfl, hfields (isField_persistedEvent e)⟩
  | reset latestEventId =>
    exact ⟨_, rfl, hfields (isField_controlEvent (by decide)
      (plain_streamResetControl latestEventId))⟩

/-! ## What has arrived -/

/-- The text of whole frames, and a part of the next one. -/
structure ArrivedText (frames : List L3.Api.SseFrame) (text : List Char)
    (arrived : List L3.Api.SseFrame) (part : List Char) : Prop where
  front : arrived <+: frames
  text : text = streamText arrived ++ part
  part : part = [] ∨ ∃ frame rest, part ++ rest = frameText frame ∧ rest ≠ [] ∧
    arrived ++ [frame] <+: frames

/-- Every part of the text of a stream is that. -/
theorem exists_arrivedText {frames : List L3.Api.SseFrame} {text : List Char}
    (h : text <+: streamText frames) : ∃ arrived part, ArrivedText frames text arrived part := by
  induction frames generalizing text with
  | nil => exact ⟨[], [], List.prefix_rfl, List.prefix_nil.1 h, .inl rfl⟩
  | cons frame frames ih =>
    obtain ⟨rest, hrest⟩ := h
    rw [streamText_cons] at hrest
    rcases List.append_eq_append_iff.1 hrest with ⟨tail, htail, -⟩ | ⟨later, rfl, hlater⟩
    · by_cases hnil : tail = []
      · rw [hnil, List.append_nil] at htail
        refine ⟨[frame], [], ⟨frames, rfl⟩, ?_, .inl rfl⟩
        simp [streamText, htail]
      · exact ⟨[], text, List.nil_prefix, rfl,
          .inr ⟨frame, tail, htail.symm, hnil, ⟨frames, rfl⟩⟩⟩
    · obtain ⟨arrived, part, harrived⟩ := ih ⟨rest, hlater.symm⟩
      refine ⟨frame :: arrived, part, List.prefix_cons_inj frame |>.2 harrived.front, ?_, ?_⟩
      · rw [streamText_cons, List.append_assoc, ← harrived.text]
      · rcases harrived.part with hnil | ⟨next, left, hnext, hne, hfront⟩
        · exact .inl hnil
        · exact .inr ⟨next, left, hnext, hne, List.prefix_cons_inj frame |>.2 hfront⟩

/-- What is drained of it are the frames that are whole. -/
theorem drainLines_arrived (finishing : Bool) {frames arrived : List L3.Api.SseFrame}
    {text part : List Char} (hfits : ∀ frame ∈ frames, Fits maxFrameBytes frame)
    (h : ArrivedText frames text arrived part) :
    ∃ fields pending, drainLines maxFrameBytes finishing .empty text =
      .ok (fields, pending, arrived.flatMap rawFrames) := by
  obtain ⟨fields, pending, hpart⟩ : ∃ fields pending,
      drainLines maxFrameBytes finishing .empty part = .ok (fields, pending, []) := by
    rcases h.part with rfl | ⟨frame, rest, hframe, hrest, hfront⟩
    · exact ⟨.empty, [], drainLines_of_none rfl⟩
    · obtain ⟨lines, hsplit, hlines⟩ := frameLines_split frame
      have hsize := hfits frame (hfront.subset (List.mem_append_right _ List.mem_cons_self))
      unfold frameText at hframe
      unfold Fits frameText at hsize
      rw [hsplit] at hframe hsize
      exact drainLines_part finishing hlines hframe.symm hrest .empty
        (by simpa [FrameFields.empty] using hsize)
  refine ⟨fields, pending, ?_⟩
  have harrived : ∀ frame ∈ arrived, Fits maxFrameBytes frame := fun frame hframe =>
    hfits frame (h.front.subset hframe)
  rw [h.text, drainLines_stream finishing harrived, hpart]
  simp [Except.map]

/-- The frames that have arrived whole in the first bytes of a stream. -/
structure Arrived (frames : List L3.Api.SseFrame) (received : List UInt8)
    (arrived : List L3.Api.SseFrame) : Prop where
  front : arrived <+: frames
  whole : streamBytes arrived <+: received
  longest : ∀ other, other <+: frames → streamBytes other <+: received → other <+: arrived

/-- The first bytes of a text are decoded to all the characters that are in
them. -/
theorem decode_received {c : Char} {text : List Char} (hc : c ≠ byteOrderMark)
    {received more : List UInt8} (h : encode (c :: text) = received ++ more) :
    ∃ decoder before after, TextDecoder.new.decode received = some (decoder, before) ∧
      c :: text = before ++ after ∧ encode before <+: received ∧
      ∀ other, encode other <+: received → other <+: before := by
  have hfeed := feedBytes_encode (c :: text)
  rw [h, feedBytes_append] at hfeed
  obtain ⟨⟨waiting, before⟩, hbefore, hafter⟩ := Option.bind_eq_some_iff.1 hfeed
  obtain ⟨⟨left, after⟩, -, heq⟩ := Option.map_eq_some_iff.1 hafter
  have htext : before ++ after = c :: text := congrArg Prod.snd heq
  have hmark : TextDecoder.dropMark false before = (!before.isEmpty, before) := by
    rcases before with _ | ⟨d, before⟩
    · rfl
    · obtain rfl := (List.cons.inj htext).1
      simp [TextDecoder.dropMark, hc]
  refine ⟨⟨waiting, !before.isEmpty⟩, before, after, ?_, htext.symm, ?_, ?_⟩
  · simp [TextDecoder.decode, TextDecoder.new, hbefore, hmark]
  · have hsound := feedBytes_sound hbefore
    exact ⟨waiting, hsound.symm⟩
  · rintro other ⟨rest, hrest⟩
    rw [← hrest, feedBytes_append, feedBytes_encode, Option.bind_some] at hbefore
    obtain ⟨⟨last, later⟩, -, heq⟩ := Option.map_eq_some_iff.1 hbefore
    exact ⟨later, congrArg Prod.snd heq⟩

/-! ## The parser -/

/-- Where the bytes are the first ones of a stream that is accepted, no chunk
makes the parser throw. -/
theorem runFrom_pushes {bytes more : List UInt8} {parser : SseParser} {frames all : List RawFrame}
    (hparsed : Parsed maxFrameBytes bytes parser frames) (chunks : List (List UInt8))
    (haccepts : Accepts maxFrameBytes (bytes ++ chunks.flatten ++ more) all) :
    ∃ last emitted later, Parsed maxFrameBytes (bytes ++ chunks.flatten) last (frames ++ emitted) ∧
      (runFrom maxFrameBytes parser chunks).frames = emitted ++ later ∧
      (later = [] ∨ ∃ parser', finish maxFrameBytes last = .ok (parser', later)) := by
  induction chunks generalizing bytes parser frames with
  | nil =>
    rw [List.flatten_nil, List.append_nil]
    cases hfinish : finish maxFrameBytes parser with
    | error error =>
      exact ⟨parser, [], [], by rwa [List.append_nil], by simp [runFrom, hfinish], .inl rfl⟩
    | ok result =>
      exact ⟨parser, [], result.2, by rwa [List.append_nil], by simp [runFrom, hfinish],
        .inr ⟨result.1, hfinish⟩⟩
  | cons chunk chunks ih =>
    rw [List.flatten_cons] at haccepts ⊢
    cases hpush : push maxFrameBytes parser chunk with
    | error error =>
      simp only [List.append_assoc] at haccepts
      exact absurd haccepts (push_error hparsed hpush (chunks.flatten ++ more) all)
    | ok result =>
      have hnext := push_ok hparsed hpush
      simp only [← List.append_assoc] at haccepts ⊢
      obtain ⟨last, emitted, later, hlast, hrun, hlater⟩ := ih hnext haccepts
      rw [List.append_assoc frames] at hlast
      refine ⟨last, result.2 ++ emitted, later, hlast, ?_, hlater⟩
      simp [runFrom, hpush, hrun]

/-- No frame starts with a byte-order mark. -/
theorem streamText_head (frame : L3.Api.SseFrame) (frames : List L3.Api.SseFrame) :
    ∃ c text, streamText (frame :: frames) = c :: text ∧ c ≠ byteOrderMark := by
  cases frame with
  | serviceState control => exact ⟨'e', _, rfl, by decide⟩
  | heartbeat => exact ⟨':', _, rfl, by decide⟩
  | event e => exact ⟨'i', _, rfl, by decide⟩
  | reset latestEventId => exact ⟨'e', _, rfl, by decide⟩

/-- A stream that arrives whole is accepted. -/
theorem accepts_stream {frames : List L3.Api.SseFrame}
    (hfits : ∀ frame ∈ frames, Fits maxFrameBytes frame) :
    Accepts maxFrameBytes (streamBytes frames) (frames.flatMap rawFrames) := by
  have hnone : takeLine true [] = none := rfl
  have hdrain := drainLines_stream true hfits []
  rw [drainLines_of_none hnone, List.append_nil] at hdrain
  rcases frames with _ | ⟨frame, frames⟩
  · exact ⟨.new, [], rfl, rfl, hdrain⟩
  · obtain ⟨c, text, htext, hc⟩ := streamText_head frame frames
    refine ⟨⟨[], true⟩, c :: text, ?_, rfl, ?_⟩
    · unfold streamBytes
      rw [htext]
      exact TextDecoder.decode_encode hc text
    · rw [← htext, hdrain]
      simp [Except.map]

/-- What is decoded of the first bytes of a stream. -/
theorem decode_stream {frames : List L3.Api.SseFrame} {received : List UInt8}
    (h : received <+: streamBytes frames) :
    ∃ decoder text, TextDecoder.new.decode received = some (decoder, text) ∧
      text <+: streamText frames ∧ encode text <+: received ∧
      ∀ other, encode other <+: received → other <+: text := by
  rcases frames with _ | ⟨frame, frames⟩
  · obtain rfl : received = [] := List.prefix_nil.1 h
    refine ⟨.new, [], rfl, List.prefix_rfl, List.prefix_rfl, fun other hother => ?_⟩
    rcases other with _ | ⟨c, other⟩
    · exact List.prefix_rfl
    · rw [encode, List.flatMap_cons] at hother
      exact absurd (List.append_eq_nil_iff.1 (List.prefix_nil.1 hother)).1 (encode_char_ne_nil c)
  · obtain ⟨c, text, htext, hc⟩ := streamText_head frame frames
    obtain ⟨more, hmore⟩ := h
    have hencode : encode (c :: text) = received ++ more := by
      rw [← htext]
      exact hmore.symm
    obtain ⟨decoder, before, after, hdecode, hsplit, hwhole, hlongest⟩ := decode_received hc hencode
    exact ⟨decoder, before, hdecode, ⟨after, by rw [htext, hsplit]⟩, hwhole, hlongest⟩

theorem encode_mono {a b : List Char} (h : a <+: b) : encode a <+: encode b := by
  obtain ⟨rest, rfl⟩ := h
  exact ⟨encode rest, by simp [encode]⟩

/-- The whole frames of the text are those of the bytes. -/
theorem ArrivedText.arrived {frames arrived : List L3.Api.SseFrame} {received : List UInt8}
    {text part : List Char} (h : ArrivedText frames text arrived part)
    (hwhole : encode text <+: received) (hlongest : ∀ other, encode other <+: received → other <+: text) :
    Arrived frames received arrived where
  front := h.front
  whole := by
    refine (encode_mono ?_).trans hwhole
    exact ⟨part, h.text.symm⟩
  longest other hother hbytes := by
    have htext := hlongest _ hbytes
    rcases List.prefix_or_prefix_of_prefix hother h.front with hle | ⟨later, rfl⟩
    · exact hle
    · rcases later with _ | ⟨next, later⟩
      · simp
      · -- then the next frame would be in the part of it
        rw [h.text, streamText_append] at htext
        have hlength := ((List.prefix_append_right_inj _).1 htext).length_le
        rw [streamText_cons, List.length_append] at hlength
        rcases h.part with rfl | ⟨frame, rest, hframe, hrest, hfront⟩
        · obtain ⟨c, text, hhead, -⟩ := streamText_head next []
          have hpos := congrArg List.length hhead
          simp only [streamText_cons, List.length_append, List.length_cons] at hpos
          simp only [streamText, List.flatMap_nil, List.length_nil] at hlength hpos
          omega
        · obtain ⟨_, hother⟩ := hother
          obtain ⟨_, hfront⟩ := hfront
          rw [← hfront, List.append_assoc, List.append_assoc] at hother
          obtain ⟨rfl, -⟩ := List.cons.inj (List.append_cancel_left hother)
          have hpos := List.length_pos_iff.2 hrest
          rw [← hframe, List.length_append] at hlength
          omega

/-- **The client reads what has arrived.** Wherever a stream is cut, also
inside a character, and in whatever chunks it comes, the parser emits the
frames that have arrived whole, and no others. -/
theorem stream_read {frames : List L3.Api.SseFrame}
    (hfits : ∀ frame ∈ frames, Fits maxFrameBytes frame) {received : List UInt8}
    (hreceived : received <+: streamBytes frames) {chunks : List (List UInt8)}
    (hchunks : chunks.flatten = received) :
    ∃ arrived, Arrived frames received arrived ∧
      (parseChunks maxFrameBytes chunks).frames = arrived.flatMap rawFrames := by
  subst hchunks
  obtain ⟨decoder, text, hdecode, hfront, hwhole, hlongest⟩ := decode_stream hreceived
  obtain ⟨arrived, part, harrived⟩ := exists_arrivedText hfront
  refine ⟨arrived, harrived.arrived hwhole hlongest, ?_⟩
  obtain ⟨more, hmore⟩ := hreceived
  have haccepts := accepts_stream hfits
  rw [← hmore] at haccepts
  obtain ⟨last, emitted, later, hlast, hrun, hlater⟩ :=
    runFrom_pushes (parsed_new maxFrameBytes) chunks haccepts
  have hemitted : emitted = arrived.flatMap rawFrames := by
    obtain ⟨read, hread, hdrain⟩ := hlast.read
    obtain ⟨fields, pending, harrived⟩ := drainLines_arrived false hfits harrived
    rw [List.nil_append, hdecode] at hread
    cases hread
    rw [hdrain] at harrived
    exact congrArg (fun drained => drained.2.2) (Except.ok.inj harrived)
  have hnone : later = [] := by
    rcases hlater with hnil | ⟨parser', hfinish⟩
    · exact hnil
    · obtain ⟨_, read, hread, -, hdrain⟩ := (finish_ok_iff hlast later).1 ⟨parser', hfinish⟩
      obtain ⟨fields, pending, harrived⟩ := drainLines_arrived true hfits harrived
      rw [List.nil_append, hdecode] at hread
      cases hread
      rw [hdrain] at harrived
      have hframes := congrArg (fun drained => drained.2.2) (Except.ok.inj harrived)
      simpa [hemitted] using hframes
  rw [parseChunks, hrun, hnone, hemitted, List.append_nil]

end

namespace Wire
open L2.Store IdLog

section
variable (integerOf : List Char → Option Int)

/-! ## The decoder -/

/-- What the client makes of a frame; a comment is nothing. -/
def decodedFrames : L3.Api.SseFrame → List DecodedFrame
  | .serviceState control => [.message (serviceStateControl control) none]
  | .heartbeat => []
  | .event e => [.message (taskEventRecord e) (some e.id.get)]
  | .reset latestEventId => [.reset latestEventId.toNat]

/-- The numbers of a frame are safe integers. -/
def SafeFrame : L3.Api.SseFrame → Prop
  | .serviceState control => isSafeInteger control.generation = true
  | .heartbeat => True
  | .event e => EventOk e ∧ SafeEvent e
  | .reset latestEventId => 0 ≤ latestEventId ∧ isSafeInteger latestEventId = true

theorem decodeFrame_serviceState {control : ServiceStateSnapshot}
    (h : isSafeInteger control.generation = true) :
    decodeFrame integerOf (controlFrame "service.state" (serviceStateControl control)) 1 =
      .ok (.message (serviceStateControl control) none) := by
  have hdata : Json.parseWide (controlFrame "service.state" (serviceStateControl control)).data =
      some (.object (serviceStateControl control)) :=
    Json.parseWide_print (plain_serviceStateControl control)
  have hversion : property "schema_version" (serviceStateControl control) =
      some (.int (1 : Nat)) := rfl
  have hkind : property "kind" (serviceStateControl control) = some (.string "service.state") := rfl
  have hgeneration : property "generation" (serviceStateControl control) =
      some (.int control.generation) := rfl
  have hstate : isServiceState (property "state" (serviceStateControl control)) = true := by
    show isServiceState (some (.string (serviceStateDto control.state))) = true
    cases control.state <;> decide
  have hmessage : isServiceStateMessage integerOf (serviceStateControl control) = true := by
    rw [isServiceStateMessage, hversion, hkind, hgeneration, hstate, nonNegative_int integerOf h,
      positive_int integerOf (by decide) Nat.one_pos]
    rfl
  rw [decodeFrame_kind integerOf hdata hversion hkind rfl (by decide), decodeKind,
    if_neg (by decide), if_pos rfl, hgeneration,
    if_pos ⟨rfl, nonNegative_int integerOf h, hstate⟩, if_pos hmessage]

theorem decodeFrame_reset {latestEventId : Int} (hle : 0 ≤ latestEventId)
    (h : isSafeInteger latestEventId = true) :
    decodeFrame integerOf (controlFrame "stream.reset" (streamResetControl latestEventId)) 1 =
      .ok (.reset latestEventId.toNat) := by
  have hdata : Json.parseWide (controlFrame "stream.reset" (streamResetControl latestEventId)).data =
      some (.object (streamResetControl latestEventId)) :=
    Json.parseWide_print (plain_streamResetControl latestEventId)
  have hversion : property "schema_version" (streamResetControl latestEventId) =
      some (.int (1 : Nat)) := rfl
  have hkind : property "kind" (streamResetControl latestEventId) =
      some (.string "stream.reset") := rfl
  have hlatest : (safeInteger integerOf
      (property "latest_event_id" (streamResetControl latestEventId))).filter (0 ≤ ·) =
      some latestEventId := by
    show Option.filter _ (if isSafeInteger latestEventId then some latestEventId else none) = _
    rw [if_pos h, Option.filter_some, if_pos (decide_eq_true hle)]
  rw [decodeFrame_kind integerOf hdata hversion hkind rfl (by decide), decodeKind, if_pos rfl,
    hlatest]
  rfl

theorem decodeFrame_frame {frame : L3.Api.SseFrame} (h : SafeFrame frame) :
    (rawFrames frame).map (fun raw => decodeFrame integerOf raw 1) =
      (decodedFrames frame).map .ok := by
  cases frame with
  | serviceState control =>
    exact congrArg (fun decoded => [decoded]) (decodeFrame_serviceState integerOf h)
  | heartbeat => rfl
  | event e => exact congrArg (fun decoded => [decoded]) (decodeFrame_event integerOf h.1 h.2)
  | reset latestEventId =>
    exact congrArg (fun decoded => [decoded]) (decodeFrame_reset integerOf h.1 h.2)

theorem decodeFrame_frames {frames : List L3.Api.SseFrame} (h : ∀ frame ∈ frames, SafeFrame frame) :
    (frames.flatMap rawFrames).map (fun raw => decodeFrame integerOf raw 1) =
      (frames.flatMap decodedFrames).map .ok := by
  induction frames with
  | nil => rfl
  | cons frame frames ih =>
    rw [List.forall_mem_cons] at h
    rw [List.flatMap_cons, List.flatMap_cons, List.map_append, List.map_append,
      decodeFrame_frame integerOf h.1, ih h.2]

/-! ## A connection -/

theorem initialHigh_nonneg {after : Int} {s : SseState} (h : (sse after).Reachable s) {high : Int}
    (hhigh : s.initialHigh = some high) : 0 ≤ high := by
  have hinductive : (sse after).Inductive fun s => ∀ n, s.initialHigh = some n → 0 ≤ n := by
    constructor
    · rintro s ⟨log, published, -, -, rfl⟩ n hn
      cases hn
    · intro s l s' hs hstep n hn
      rcases initialHigh_step hstep with hsame | ⟨-, hread⟩
      · exact hs n (hsame ▸ hn)
      · cases hread.symm.trans hn
        exact Int.natCast_nonneg _
  exact hinductive.reachable s h high hhigh

theorem events_prefix {a b : List L3.Api.SseFrame} (h : a <+: b) : events a <+: events b := by
  obtain ⟨rest, rfl⟩ := h
  exact ⟨events rest, List.filterMap_append.symm⟩

/-- **A connection, read by the client.** In every reachable state of a
connection from `after`, wherever the bytes it has sent are cut and in whatever
chunks they come, the client decodes every frame that has arrived whole, in
order, to what the frame says, and nothing else; the events among them are
those of the log that follow `after`, without a gap. -/
theorem connection_read {after : Int} {s : SseState} (hr : (sse after).Reachable s)
    (hsafe : isSafeInteger after = true) (hlog : ∀ e ∈ s.log, EventOk e ∧ SafeEvent e)
    (hcontrols : ∀ control, .serviceState control ∈ s.out → isSafeInteger control.generation = true)
    {maxFrameBytes : Nat} (hfits : ∀ frame ∈ s.out, Fits maxFrameBytes frame)
    {received : List UInt8} (hreceived : received <+: streamBytes s.out)
    {chunks : List (List UInt8)} (hchunks : chunks.flatten = received) :
    ∃ arrived, Arrived s.out received arrived ∧
      (parseChunks maxFrameBytes chunks).frames.map (fun raw => decodeFrame integerOf raw 1) =
        (arrived.flatMap decodedFrames).map .ok ∧
      Contig eventKey s.log after (events arrived) := by
  obtain ⟨arrived, harrived, hframes⟩ := stream_read hfits hreceived hchunks
  have hyielded := ((sseInv_inductive after).reachable s hr).yielded
  have hsafeFrames : ∀ frame ∈ arrived, SafeFrame frame := by
    intro frame hframe
    have hmem := harrived.front.subset hframe
    cases frame with
    | serviceState control => exact hcontrols control hmem
    | heartbeat => trivial
    | event e =>
      have hevent : e ∈ events s.out := List.mem_filterMap.2 ⟨_, hmem, rfl⟩
      exact hlog e (contig_mem hyielded.contig e hevent)
    | reset latestEventId =>
      obtain ⟨hhigh, hlt, -⟩ := hyielded.resets latestEventId hmem
      have hnonneg := initialHigh_nonneg hr hhigh
      have hbounds : -maxSafeInteger ≤ after ∧ after ≤ maxSafeInteger := of_decide_eq_true hsafe
      unfold maxSafeInteger at hbounds
      refine ⟨hnonneg, decide_eq_true ?_⟩
      unfold maxSafeInteger
      omega
  refine ⟨arrived, harrived, ?_, ?_⟩
  · rw [hframes, decodeFrame_frames integerOf hsafeFrames]
  · obtain ⟨rest, hrest⟩ := events_prefix harrived.front
    have hcontig := hyielded.contig
    rw [← hrest] at hcontig
    exact (contig_append.1 hcontig).1

end

/-! ## A connection that is cut -/

/-- An event is replayed after a heartbeat, and a second one. -/
def sampleReplay : List SseLabel :=
  [.serviceState (some ⟨.ready, 0⟩) true, .heartbeat, .read true true, .read true true, .emit true,
   .emit true]

def samplePlan : TaskEvent := L3.Api.sampleEvent 1 (by decide)

def samplePlanLater : TaskEvent := L3.Api.sampleEvent 3 (by decide)

def sampleOut : List L3.Api.SseFrame :=
  [.serviceState ⟨.ready, 0⟩, .heartbeat, .event samplePlan, .event samplePlanLater]

/-- The first bytes of them, up to the second event. -/
def sampleReceived : List UInt8 := (streamBytes sampleOut).take 300

/-- The connection is cut inside the second event, and its bytes come in two
chunks: three frames are read of it. -/
theorem connection_read_sample : ∃ s arrived, (sse 0).Reachable s ∧ s.out = sampleOut ∧
    Arrived s.out sampleReceived arrived ∧
    (parseChunks 1024 [sampleReceived.take 70, sampleReceived.drop 70]).frames.map
      (fun raw => decodeFrame (fun _ => none) raw 1) = (arrived.flatMap decodedFrames).map .ok ∧
    Contig eventKey s.log 0 (events arrived) := by
  have hrun : (LTS.exec sseNext (.connect [samplePlan, samplePlanLater] 3 0) sampleReplay).map
      (fun s => (s.out, s.log)) = some (sampleOut, [samplePlan, samplePlanLater]) := by
    decide +kernel
  obtain ⟨s, hs, heq⟩ := Option.map_eq_some_iff.1 hrun
  obtain ⟨hout, hlog⟩ := Prod.mk.inj heq
  have hr : (sse 0).Reachable s :=
    LTS.reachable_of_exec ⟨_, 3, by
      simp [Increasing, eventKey, samplePlan, samplePlanLater, L3.Api.sampleEvent, TaskEvent.new],
      by decide, rfl⟩ hs
  have hok : ∀ e ∈ s.log, EventOk e ∧ SafeEvent e := by
    rw [hlog]
    intro e he
    simp only [List.mem_cons, List.not_mem_nil, or_false] at he
    rcases he with rfl | rfl
    · exact ⟨eventOk_panel rfl _ _ _, rfl, rfl⟩
    · exact ⟨eventOk_panel rfl _ _ _, rfl, rfl⟩
  have hcontrols : ∀ control, .serviceState control ∈ s.out →
      isSafeInteger control.generation = true := by
    rw [hout]
    intro control hcontrol
    simp only [sampleOut, List.mem_cons, List.not_mem_nil, or_false] at hcontrol
    rcases hcontrol with h | h | h | h <;> cases h
    decide
  have hfits : ∀ frame ∈ s.out, Fits 1024 frame := by
    rw [hout]
    have hall : sampleOut.all (fun frame => Fits 1024 frame) = true := by decide +kernel
    exact fun frame hframe => of_decide_eq_true (List.all_eq_true.1 hall frame hframe)
  have hreceived : sampleReceived <+: streamBytes s.out := by
    rw [hout]
    exact List.take_prefix _ _
  have hchunks : [sampleReceived.take 70, sampleReceived.drop 70].flatten = sampleReceived := by
    simp
  obtain ⟨arrived, harrived, hframes, hcontig⟩ := connection_read (fun _ => none) hr (by decide)
    hok hcontrols hfits hreceived hchunks
  exact ⟨s, arrived, hr, hout, harrived, hframes, hcontig⟩

end Wire

end CodingAgent.L5.Web
