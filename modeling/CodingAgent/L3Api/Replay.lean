import CodingAgent.L3Api.Sse

/-!
# The event stream replays without gaps

The stream reads the log in pages up to a high mark, drains what the live
stream has ready, reads again while the drain saw a lag, and then follows the
live stream. `p` is the key up to which the live stream has been read.

* `Stage`: at each program point, how far `last` and the buffer reach: a page
  continues `last`, a drain without lag leaves a buffer that continues `last`
  up to `p` (`Covered`), and the live loop never stands behind `p`.
* `sseInv_step`: the invariant, over every step.
* `replay_gapless`: what has been yielded, in every reachable state.
-/
namespace CodingAgent.L3.Api
open CodingAgent.L1.Domain CodingAgent.L2.Store CodingAgent.IdLog

/-! ## Pages -/

theorem eventKey_le_latest {log : List TaskEvent} {e : TaskEvent} (h : e ∈ log) :
    eventKey e ≤ latestEventId log := by
  have := le_latest e h
  simp only [eventKey, latestEventId]
  omega

theorem latestEventId_append (log new : List TaskEvent) :
    latestEventId log ≤ latestEventId (log ++ new) := by
  have : latest log ≤ latest (log ++ new) :=
    latest_le fun e he => le_latest e (List.mem_append_left new he)
  simp only [latestEventId]
  omega

theorem dedupAfter_increasing {e : TaskEvent} {es : List TaskEvent}
    (h : Increasing eventKey (e :: es)) : dedupAfter e.id es = es := by
  induction es generalizing e with
  | nil => rfl
  | cons f es ih =>
    obtain ⟨he, hes⟩ := List.pairwise_cons.1 h
    have hne : f.id ≠ e.id := by
      intro heq
      have := he f List.mem_cons_self
      simp [eventKey, heq] at this
    rw [dedupAfter, if_neg hne, ih hes]

theorem dedupById_increasing {es : List TaskEvent} (h : Increasing eventKey es) :
    dedupById es = es := by
  cases es with
  | nil => rfl
  | cons e es => rw [dedupById, dedupAfter_increasing h]

theorem normalizePage_increasing {page : List TaskEvent} (h : Increasing eventKey page) :
    normalizePage (some page) = some page := by
  have hs : page.insertionSort (fun a b => a.id.get ≤ b.id.get) = page :=
    List.Pairwise.insertionSort_eq (h.imp fun hlt => by simp only [eventKey] at hlt; omega)
  rw [normalizePage, Option.map_some, hs, dedupById_increasing h]

/-- A page that could be read continues its cursor and stays below its bound. -/
theorem page_contig {log : List TaskEvent} (hl : Increasing eventKey log) {after through : Int}
    {limit : Nat} {ok : Bool} {page : List TaskEvent}
    (h : normalizePage (if ok then eventsBetween log after through limit else none) = some page) :
    Contig eventKey log after page ∧ ∀ e ∈ page, eventKey e ≤ through := by
  cases ok with
  | false => cases h
  | true =>
    rw [if_pos rfl, eventsBetween] at h
    split at h
    · have hc := contig_filter_le through
        (contig_take (limitAsI64 limit) (contig_filter hl after))
      rw [normalizePage_increasing (contig_pairwise hc)] at h
      cases h
      refine ⟨hc, fun e he => ?_⟩
      simpa using (List.mem_filter.1 he).2
    · cases h

/-- What a drain takes is beyond everything it has buffered. -/
theorem bufferInsert_beyond {e : TaskEvent} {bs : List TaskEvent}
    (h : ∀ b ∈ bs, eventKey b < eventKey e) : bufferInsert e bs = bs ++ [e] := by
  induction bs with
  | nil => rfl
  | cons b bs ih =>
    have hb := h b List.mem_cons_self
    simp only [eventKey] at hb
    have hne : e.id ≠ b.id := fun heq => by rw [heq] at hb; omega
    rw [bufferInsert, if_neg (by omega), if_neg hne, ih fun x hx => h x (List.mem_cons_of_mem b hx)]
    rfl

/-! ## The invariant -/

/-- The persisted events among the frames. -/
def events (out : List SseFrame) : List TaskEvent :=
  out.filterMap fun
    | .event e => some e
    | .serviceState _ | .heartbeat | .reset _ => none

theorem events_snoc (out : List SseFrame) (f : SseFrame) :
    events (out ++ [f]) = events out ++ events [f] := List.filterMap_append

/-- What has been yielded from the cursor `after` on. -/
structure Yielded (after : Int) (s : SseState) : Prop where
  increasing : Increasing eventKey s.log
  published : s.published ≤ latestEventId s.log
  contig : Contig eventKey s.log after (events s.out)
  resets : ∀ n, .reset n ∈ s.out → s.initialHigh = some n ∧ n < after ∧ events s.out = []

/-- A stream that has not ended stands where its output ends. -/
structure Running (after : Int) (s : SseState) : Prop where
  increasing : Increasing eventKey s.log
  published : s.published ≤ latestEventId s.log
  contig : Contig eventKey s.log after (events s.out)
  position : s.last = endKey eventKey after (events s.out)
  noReset : ∀ n, .reset n ∉ s.out

/-- The live stream has been read up to `p`. -/
structure Unread (s : SseState) (p : Int) : Prop where
  feed : Feed eventKey s.log p s.queue s.published
  buffered : ∀ b ∈ s.buffered, eventKey b ≤ p

/-- The first high mark has been read, and `last` is not above the log. -/
structure Started (s : SseState) : Prop where
  high : s.initialHigh ≠ none
  bounded : s.last ≤ latestEventId s.log

/-- `es` continues `last` up to `p`. -/
structure Covered (s : SseState) (es : List TaskEvent) (p : Int) : Prop where
  contig : Contig eventKey s.log s.last es
  reach : endKey eventKey s.last es = max s.last p

/-- A replay to `high` will reach everything read so far from the live
stream. -/
structure Replaying (s : SseState) (high p : Int) : Prop where
  reach : p ≤ high
  bounded : high ≤ latestEventId s.log
  below : s.last ≤ high

/-- How far `last` and the buffer reach, at each program point. -/
def Stage (s : SseState) (p : Int) : Prop :=
  match s.pc with
  | .start => s.initialHigh = none ∧ events s.out = []
  | .readHigh => (s.initialHigh = none ∧ events s.out = []) ∨ Started s
  | .readPage high => Started s ∧ Replaying s high p
  | .page high _ rest =>
    Started s ∧ Replaying s high p ∧ Contig eventKey s.log s.last rest ∧
      ∀ e ∈ rest, eventKey e ≤ high
  | .drain _ lagged | .yieldNow lagged =>
    Started s ∧ (lagged = 0 → s.pendingRefills = 0 → Covered s s.buffered p)
  | .flush rest => Started s ∧ s.buffered = [] ∧ Covered s rest p
  | .live => Started s ∧ p ≤ s.last
  | .done => True

/-- A stream has ended, or runs with its live stream read up to some `p`. -/
inductive SseInv (after : Int) (s : SseState) : Prop
  | ended (pc : s.pc = .done) (yielded : Yielded after s)
  | running (p : Int) (run : Running after s) (unread : Unread s p) (stage : Stage s p)

theorem Running.yielded {after : Int} {s : SseState} (h : Running after s) : Yielded after s where
  increasing := h.increasing
  published := h.published
  contig := h.contig
  resets n hn := absurd hn (h.noReset n)

theorem SseInv.yielded {after : Int} {s : SseState} : SseInv after s → Yielded after s
  | .ended _ h => h
  | .running _ h _ _ => h.yielded

variable {after : Int} {s : SseState} {p : Int}

theorem SseInv.terminate (h : Yielded after s) : SseInv after s.terminate :=
  .ended rfl ⟨h.increasing, h.published, h.contig, h.resets⟩

/-- A frame that is neither an event nor a reset. -/
theorem Running.yield (h : Running after s) {f : SseFrame} (hf : events [f] = [])
    (hr : ∀ n, f ≠ .reset n) : Running after (s.yield f) where
  increasing := h.increasing
  published := h.published
  contig := by
    show Contig eventKey s.log after (events (s.out ++ [f]))
    rw [events_snoc, hf, List.append_nil]; exact h.contig
  position := by
    show s.last = endKey eventKey after (events (s.out ++ [f]))
    rw [events_snoc, hf, List.append_nil]; exact h.position
  noReset n hn := by
    rcases List.mem_append.1 hn with hn | hn
    · exact h.noReset n hn
    · exact hr n (List.mem_singleton.1 hn).symm

/-- The next event of the log. -/
theorem Running.yieldEvent (h : Running after s) {e : TaskEvent}
    (he : Next eventKey s.log s.last e) : Running after (s.yieldEvent e) where
  increasing := h.increasing
  published := h.published
  contig := by
    show Contig eventKey s.log after (events (s.out ++ [.event e]))
    rw [events_snoc]
    exact contig_snoc h.contig (h.position ▸ he)
  position := by
    show eventKey e = endKey eventKey after (events (s.out ++ [.event e]))
    rw [events_snoc]
    exact (endKey_snoc after (events s.out) e).symm
  noReset n hn := by
    rcases List.mem_append.1 hn with hn | hn
    · exact h.noReset n hn
    · cases List.mem_singleton.1 hn

/-! ## The pieces of a step -/

/-- The head of the replay loop: another page, or the drain. -/
theorem SseInv.replay (hr : Running after s) (hu : Unread s p) (hs : Started s) {high : Int}
    (hp : Replaying s high p) : SseInv after (s.replay high) := by
  unfold SseState.replay
  split
  · exact .running p ⟨hr.increasing, hr.published, hr.contig, hr.position, hr.noReset⟩
      ⟨hu.feed, hu.buffered⟩ ⟨⟨hs.high, hs.bounded⟩, ⟨hp.reach, hp.bounded, hp.below⟩⟩
  · rename_i hlt
    have hreach : p ≤ s.last := le_trans hp.reach (not_lt.1 hlt)
    -- everything buffered so far has been replayed
    have hnil : s.buffered.filter (fun e => s.last < eventKey e) = [] := by
      rw [List.filter_eq_nil_iff]
      intro e he
      have := le_trans (hu.buffered e he) hreach
      simpa using this
    refine .running p ⟨hr.increasing, hr.published, hr.contig, hr.position, hr.noReset⟩
      ⟨hu.feed, ?_⟩ ⟨⟨hs.high, hs.bounded⟩, fun _ _ => ?_⟩
    · intro b hb
      exact hu.buffered b (List.mem_filter.1 hb).1
    · refine ⟨?_, ?_⟩
      · show Contig eventKey s.log s.last (s.buffered.filter _)
        rw [hnil]; trivial
      · show endKey eventKey s.last (s.buffered.filter _) = max s.last p
        rw [hnil, max_eq_left hreach]; rfl

/-- The first read may find the cursor above the log; no later one does. -/
theorem SseInv.onHigh (hr : Running after s) (hu : Unread s p)
    (hs : (s.initialHigh = none ∧ events s.out = []) ∨ Started s) (serialized : Bool) :
    SseInv after (s.onHigh (latestEventId s.log) serialized) := by
  have hpd : p ≤ latestEventId s.log := le_trans (feed_le hu.feed) hr.published
  unfold SseState.onHigh
  dsimp only
  split
  · rename_i hlt
    rcases hs with ⟨hnone, hev⟩ | hs
    · have hout : events (s.out ++ [.reset (latestEventId s.log)]) = [] := by
        rw [events_snoc, hev]; rfl
      have hlast : s.last = after := by rw [hr.position, hev]; rfl
      cases serialized with
      | false =>
        exact SseInv.terminate ⟨hr.increasing, hr.published, hr.contig,
          fun n hn => absurd hn (hr.noReset n)⟩
      | true =>
        refine SseInv.terminate ⟨hr.increasing, hr.published, ?_, ?_⟩
        · show Contig eventKey s.log after (events (s.out ++ [_]))
          rw [hout]; trivial
        · intro n hn
          rcases List.mem_append.1 hn with hn | hn
          · exact absurd hn (hr.noReset n)
          · cases List.mem_singleton.1 hn
            refine ⟨?_, hlast ▸ hlt, hout⟩
            show s.initialHigh.or _ = _
            rw [hnone]; rfl
    · exact absurd hs.bounded (not_le.2 hlt)
  · rename_i hle
    have hle : s.last ≤ latestEventId s.log := not_lt.1 hle
    refine SseInv.replay (p := p) (s := { s with initialHigh := s.initialHigh.or _ })
      ⟨hr.increasing, hr.published, hr.contig, hr.position, hr.noReset⟩
      ⟨hu.feed, hu.buffered⟩ ⟨?_, hle⟩ ⟨hpd, le_refl _, hle⟩
    show s.initialHigh.or _ ≠ none
    cases s.initialHigh <;> simp

/-- The next event of a page continues the output. -/
theorem SseInv.emitPage (hr : Running after s) (hu : Unread s p) (hs : Started s) {high : Int}
    (hp : Replaying s high p) {rest : List TaskEvent} (hc : Contig eventKey s.log s.last rest)
    (hb : ∀ e ∈ rest, eventKey e ≤ high) (before : Int) (serialized : Bool) :
    SseInv after (s.emitPage high before rest serialized) := by
  unfold SseState.emitPage
  cases rest with
  | nil =>
    dsimp only
    split
    · exact SseInv.terminate hr.yielded
    · exact SseInv.replay hr hu hs hp
  | cons e rest =>
    obtain ⟨hnext, hrest⟩ := hc
    have hhigh := hb e List.mem_cons_self
    have hlt := hnext.lt
    dsimp only
    rw [if_neg (by simp only [not_or, not_le, not_lt]; exact ⟨hlt, hhigh⟩)]
    split
    · have hr' := hr.yieldEvent hnext
      exact .running p ⟨hr'.increasing, hr'.published, hr'.contig, hr'.position, hr'.noReset⟩
        ⟨hu.feed, hu.buffered⟩ ⟨⟨hs.high, eventKey_le_latest hnext.mem⟩,
          ⟨hp.reach, hp.bounded, hhigh⟩, hrest, fun x hx => hb x (List.mem_cons_of_mem e hx)⟩
    · exact SseInv.terminate hr.yielded

/-- The live loop stands at or beyond what it has read. -/
theorem SseInv.toLive (hr : Running after s) (hu : Unread s p) (hs : Started s) (hp : p ≤ s.last) :
    SseInv after s.toLive := by
  unfold SseState.toLive
  split
  · exact SseInv.terminate hr.yielded
  · exact .running p ⟨hr.increasing, hr.published, hr.contig, hr.position, hr.noReset⟩
      ⟨hu.feed, hu.buffered⟩ ⟨⟨hs.high, hs.bounded⟩, hp⟩

theorem SseInv.emitBuffered (hr : Running after s) (hu : Unread s p) (hs : Started s)
    (hb : s.buffered = []) {rest : List TaskEvent} (hc : Covered s rest p) (serialized : Bool) :
    SseInv after (s.emitBuffered rest serialized) := by
  unfold SseState.emitBuffered
  cases rest with
  | nil =>
    have hreach : s.last = max s.last p := hc.reach
    exact SseInv.toLive hr hu hs (hreach ▸ le_max_right _ _)
  | cons e rest =>
    obtain ⟨hnext, hrest⟩ := hc.contig
    dsimp only
    rw [if_neg (not_le.2 hnext.lt)]
    split
    · have hr' := hr.yieldEvent hnext
      have hend : endKey eventKey (eventKey e) rest = max s.last p := hc.reach
      have hle := contig_le_endKey hrest
      refine .running p ⟨hr'.increasing, hr'.published, hr'.contig, hr'.position, hr'.noReset⟩
        ⟨hu.feed, hu.buffered⟩ ⟨⟨hs.high, eventKey_le_latest hnext.mem⟩, hb, ⟨hrest, ?_⟩⟩
      show endKey eventKey (eventKey e) rest = max (eventKey e) p
      have hlt := hnext.lt
      rw [hend] at hle ⊢
      omega
    · exact SseInv.terminate hr.yielded

/-- With no refill pending the buffer is flushed; otherwise the log is read
again. -/
theorem SseInv.refill (hr : Running after s) (hu : Unread s p) (hs : Started s)
    (hc : s.pendingRefills = 0 → Covered s s.buffered p) : SseInv after s.refill := by
  unfold SseState.refill
  split
  · exact .running p ⟨hr.increasing, hr.published, hr.contig, hr.position, hr.noReset⟩
      ⟨hu.feed, hu.buffered⟩ (.inr ⟨hs.high, hs.bounded⟩)
  · rename_i hz
    obtain ⟨hcontig, hreach⟩ := hc (by omega)
    exact .running p ⟨hr.increasing, hr.published, hr.contig, hr.position, hr.noReset⟩
      ⟨hu.feed, by simp [SseState.toFlush]⟩
      ⟨⟨hs.high, hs.bounded⟩, rfl, ⟨hcontig, hreach⟩⟩

theorem SseInv.drained (hr : Running after s) (hu : Unread s p) (hs : Started s) {lagged : Nat}
    (hc : lagged = 0 → s.pendingRefills = 0 → Covered s s.buffered p) (exhausted : Bool) :
    SseInv after (s.drained lagged exhausted) := by
  unfold SseState.drained
  refine SseInv.refill (p := p)
    ⟨hr.increasing, hr.published, hr.contig, hr.position, hr.noReset⟩ ⟨hu.feed, hu.buffered⟩
    ⟨hs.high, hs.bounded⟩ fun hz => ?_
  have hz : s.pendingRefills + (lagged + if exhausted then 1 else 0) = 0 := hz
  obtain ⟨hcontig, hreach⟩ := hc (by omega) (by omega)
  exact ⟨hcontig, hreach⟩

/-- Taking the next live event keeps a buffer that continues `last`. -/
theorem Covered.take {bs : List TaskEvent} {e : TaskEvent} (hc : Covered s bs p)
    (hb : ∀ b ∈ bs, eventKey b ≤ p) (he : Next eventKey s.log p e) :
    (s.last < eventKey e → Covered s (bufferInsert e bs) (eventKey e)) ∧
      (eventKey e ≤ s.last → Covered s bs (eventKey e)) := by
  have hlt := he.lt
  constructor
  · intro hlast
    rw [bufferInsert_beyond fun b hbs => lt_of_le_of_lt (hb b hbs) hlt]
    have hnext : Next eventKey s.log (max s.last p) e :=
      ⟨he.mem, max_lt hlast hlt, fun x hx hmx => he.least x hx (lt_of_le_of_lt (le_max_right _ _) hmx)⟩
    refine ⟨contig_snoc hc.contig (hc.reach ▸ hnext), ?_⟩
    rw [endKey_snoc, max_eq_right (le_of_lt hlast)]
  · intro hlast
    refine ⟨hc.contig, ?_⟩
    rw [hc.reach, max_eq_left hlast, max_eq_left (le_trans (le_of_lt hlt) hlast)]

theorem mem_bufferInsert {e b : TaskEvent} {bs : List TaskEvent} (h : b ∈ bufferInsert e bs) :
    b = e ∨ b ∈ bs := by
  induction bs with
  | nil => exact .inl (List.mem_singleton.1 h)
  | cons x bs ih =>
    unfold bufferInsert at h
    split at h
    · exact List.mem_cons.1 h
    · split at h
      · rcases List.mem_cons.1 h with h | h
        · exact .inl h
        · exact .inr (List.mem_cons_of_mem x h)
      · rcases List.mem_cons.1 h with h | h
        · exact .inr (h ▸ List.mem_cons_self)
        · exact (ih h).imp id (List.mem_cons_of_mem x)

/-- A drain takes an event. -/
theorem SseInv.bufferEvent (hr : Running after s) (hs : Started s) {e : TaskEvent}
    (hf : Feed eventKey s.log (eventKey e) s.queue s.published)
    (hb : ∀ b ∈ s.buffered, eventKey b ≤ p) (he : Next eventKey s.log p e) {left lagged : Nat}
    (hc : lagged = 0 → s.pendingRefills = 0 → Covered s s.buffered p) :
    SseInv after (s.bufferEvent e left lagged) := by
  have hb' : ∀ b ∈ s.buffered, eventKey b ≤ eventKey e := fun b h =>
    le_trans (hb b h) (le_of_lt he.lt)
  unfold SseState.bufferEvent
  dsimp only
  split
  · rename_i hlast
    split
    · exact SseInv.terminate ⟨hr.increasing, hr.published, hr.contig, hr.yielded.resets⟩
    · refine .running (eventKey e)
        ⟨hr.increasing, hr.published, hr.contig, hr.position, hr.noReset⟩ ⟨hf, ?_⟩
        ⟨⟨hs.high, hs.bounded⟩, fun hl hz => ?_⟩
      · intro b h
        rcases mem_bufferInsert h with rfl | h
        · exact le_refl _
        · exact hb' b h
      · obtain ⟨hcontig, hreach⟩ := ((hc hl hz).take hb he).1 hlast
        exact ⟨hcontig, hreach⟩
  · rename_i hlast
    refine .running (eventKey e)
      ⟨hr.increasing, hr.published, hr.contig, hr.position, hr.noReset⟩ ⟨hf, hb'⟩
      ⟨⟨hs.high, hs.bounded⟩, fun hl hz => ?_⟩
    obtain ⟨hcontig, hreach⟩ := ((hc hl hz).take hb he).2 (not_lt.1 hlast)
    exact ⟨hcontig, hreach⟩

theorem SseInv.drainStep (hr : Running after s) (hu : Unread s p) (hs : Started s)
    {left lagged : Nat} (hc : lagged = 0 → s.pendingRefills = 0 → Covered s s.buffered p)
    {pending : Bool} {s' : SseState} (h : s.drainStep left lagged pending = some s') :
    SseInv after s' := by
  unfold SseState.drainStep at h
  cases left with
  | zero =>
    cases h
    refine .running p ⟨hr.increasing, hr.published, hr.contig, hr.position, hr.noReset⟩
      ⟨hu.feed, hu.buffered⟩ ⟨⟨hs.high, hs.bounded⟩, fun hl hz => ?_⟩
    obtain ⟨hcontig, hreach⟩ := hc hl hz
    exact ⟨hcontig, hreach⟩
  | succ left =>
    dsimp only at h
    split at h
    · cases h
      exact SseInv.drained hr hu hs hc false
    · have hfeed := hu.feed
      cases hq : s.queue with
      | nil => rw [hq] at h; cases h
      | cons item queue =>
        rw [hq] at h hfeed
        cases item with
        | event e =>
          cases h
          exact SseInv.bufferEvent (p := p) (s := { s with queue })
            ⟨hr.increasing, hr.published, hr.contig, hr.position, hr.noReset⟩
            ⟨hs.high, hs.bounded⟩ hfeed.2 hu.buffered hfeed.1
            fun hl hz => ⟨(hc hl hz).contig, (hc hl hz).reach⟩
        | lagged =>
          cases h
          obtain ⟨p', hle, hfeed⟩ := hfeed
          exact .running p' ⟨hr.increasing, hr.published, hr.contig, hr.position, hr.noReset⟩
            ⟨hfeed, fun b hb => le_trans (hu.buffered b hb) hle⟩
            ⟨⟨hs.high, hs.bounded⟩, fun hl => absurd hl (Nat.succ_ne_zero _)⟩

/-- The live loop takes an event: the next one of the log, or one already
yielded. A lag sends it back to the log. -/
theorem SseInv.receive (hr : Running after s) (hu : Unread s p) (hs : Started s)
    (hp : p ≤ s.last) {serialized : Bool} {s' : SseState} (h : s.receive serialized = some s') :
    SseInv after s' := by
  have hfeed := hu.feed
  unfold SseState.receive at h
  cases hq : s.queue with
  | nil => rw [hq] at h; cases h
  | cons item queue =>
    rw [hq] at h hfeed
    cases item with
    | event e =>
      obtain ⟨hnext, hfeed⟩ := hfeed
      have hb : ∀ b ∈ s.buffered, eventKey b ≤ eventKey e := fun b hb =>
        le_trans (hu.buffered b hb) (le_of_lt hnext.lt)
      cases h
      have hr' : Running after { s with queue } :=
        ⟨hr.increasing, hr.published, hr.contig, hr.position, hr.noReset⟩
      dsimp only
      split
      · rename_i hlast
        have hnext' : Next eventKey s.log s.last e :=
          ⟨hnext.mem, hlast, fun x hx hlx => hnext.least x hx (lt_of_le_of_lt hp hlx)⟩
        split
        · exact SseInv.toLive (p := eventKey e) (hr'.yieldEvent hnext') ⟨hfeed, hb⟩
            ⟨hs.high, eventKey_le_latest hnext.mem⟩ (le_refl _)
        · exact SseInv.terminate hr'.yielded
      · rename_i hlast
        exact SseInv.toLive (p := eventKey e) hr' ⟨hfeed, hb⟩ ⟨hs.high, hs.bounded⟩
          (not_lt.1 hlast)
    | lagged =>
      cases h
      obtain ⟨p', hle, hfeed⟩ := hfeed
      refine .running p' ⟨hr.increasing, hr.published, hr.contig, hr.position, hr.noReset⟩
        ⟨hfeed, ?_⟩ ⟨⟨hs.high, hs.bounded⟩, fun _ hz => ?_⟩
      · intro b hb; cases hb
      · cases hz

/-! ## The invariant over one step -/

/-- What the stage says survives a step that leaves the stream's own variables
alone, while the log may grow. -/
theorem Stage.kept {s' : SseState} {new : List TaskEvent} (h : Stage s p)
    (hb : Beyond eventKey s.log new) (hlog : s'.log = s.log ++ new) (hpc : s'.pc = s.pc)
    (hlast : s'.last = s.last) (hhigh : s'.initialHigh = s.initialHigh)
    (hbuf : s'.buffered = s.buffered) (hpend : s'.pendingRefills = s.pendingRefills)
    (hev : events s'.out = events s.out) : Stage s' p := by
  have hstarted : Started s → Started s' := fun hs =>
    ⟨hhigh ▸ hs.high, by rw [hlast, hlog]; exact le_trans hs.bounded (latestEventId_append _ _)⟩
  have hreplaying : ∀ {high}, Replaying s high p → Replaying s' high p := fun hr =>
    ⟨hr.reach, by rw [hlog]; exact le_trans hr.bounded (latestEventId_append _ _),
      hlast ▸ hr.below⟩
  have hcontig : ∀ {es}, Contig eventKey s.log s.last es → Contig eventKey s'.log s'.last es := by
    intro es hc
    rw [hlog, hlast]
    exact contig_grow hb hc
  have hcovered : ∀ {es}, Covered s es p → Covered s' es p := fun hc =>
    ⟨hcontig hc.contig, by rw [hlast]; exact hc.reach⟩
  unfold Stage at h ⊢
  rw [hpc]
  split <;> rename_i hp <;> simp only [hp] at h
  · exact ⟨hhigh.trans h.1, hev.trans h.2⟩
  · exact h.imp (fun h => ⟨hhigh.trans h.1, hev.trans h.2⟩) hstarted
  · exact ⟨hstarted h.1, hreplaying h.2⟩
  · exact ⟨hstarted h.1, hreplaying h.2.1, hcontig h.2.2.1, h.2.2.2⟩
  · refine ⟨hstarted h.1, fun hl hz => ?_⟩
    rw [hbuf]
    exact hcovered (h.2 hl (hpend ▸ hz))
  · refine ⟨hstarted h.1, fun hl hz => ?_⟩
    rw [hbuf]
    exact hcovered (h.2 hl (hpend ▸ hz))
  · exact ⟨hstarted h.1, hbuf.trans h.2.1, hcovered h.2.2⟩
  · exact ⟨hstarted h.1, hlast ▸ h.2⟩
  · trivial

/-- A step of the environment: the log, the dispatcher and the live stream
move, the stream stands still. -/
theorem SseInv.environment (h : SseInv after s) {new : List TaskEvent} {published : Int}
    {queue : List (FeedItem TaskEvent)} (ending : Bool)
    (hl : Increasing eventKey (s.log ++ new)) (hb : Beyond eventKey s.log new)
    (hd : published ≤ latestEventId (s.log ++ new))
    (hf : ∀ {p}, Feed eventKey s.log p s.queue s.published →
      Feed eventKey (s.log ++ new) p queue published) :
    SseInv after { s with log := s.log ++ new, published, queue, ending } := by
  cases h with
  | ended pc y => exact .ended pc ⟨hl, hd, contig_grow hb y.contig, y.resets⟩
  | running p hr hu hs =>
    exact .running p ⟨hl, hd, contig_grow hb hr.contig, hr.position, hr.noReset⟩
      ⟨hf hu.feed, hu.buffered⟩ (hs.kept hb rfl rfl rfl rfl rfl rfl rfl)

theorem beyond_nil (log : List TaskEvent) : Beyond eventKey log [] := by
  intro x _ y hy; cases hy

theorem Stage.yield (hs : Stage s p) {f : SseFrame} (hf : events [f] = []) :
    Stage (s.yield f) p :=
  hs.kept (beyond_nil s.log) (List.append_nil _).symm rfl rfl rfl rfl rfl
    (by show events (s.out ++ [f]) = events s.out; rw [events_snoc, hf, List.append_nil])

theorem Running.control (h : Running after s) (closed : Bool) (generation : Nat) :
    Running after { s with serviceClosed := closed, serviceGeneration := generation } :=
  ⟨h.increasing, h.published, h.contig, h.position, h.noReset⟩

theorem Stage.control (h : Stage s p) (closed : Bool) (generation : Nat) :
    Stage { s with serviceClosed := closed, serviceGeneration := generation } p :=
  h.kept (beyond_nil s.log) (List.append_nil _).symm rfl rfl rfl rfl rfl rfl

/-- A service update yields no persisted event. -/
theorem SseInv.onService (hr : Running after s) (hu : Unread s p) (hs : Stage s p)
    (ready : List ServiceStateSnapshot) (ended serialized : Bool) {s' : SseState}
    (h : s.onService ready ended serialized = s') :
    (s'.pc = .done ∧ Yielded after s') ∨
      (s'.pc = s.pc ∧ Running after s' ∧ Unread s' p ∧ Stage s' p) := by
  unfold SseState.onService at h
  dsimp only at h
  split at h
  · subst h
    exact .inr ⟨rfl, hr.control _ _, ⟨hu.feed, hu.buffered⟩, hs.control _ _⟩
  · rename_i newest _
    split at h
    · split at h
      · subst h
        exact .inr ⟨rfl, (hr.control _ newest.generation).yield rfl (fun _ => nofun),
          ⟨hu.feed, hu.buffered⟩, (hs.control _ newest.generation).yield rfl⟩
      · subst h
        exact .inl ⟨rfl, ⟨hr.increasing, hr.published, hr.contig, hr.yielded.resets⟩⟩
    · subst h
      exact .inr ⟨rfl, hr.control _ _, ⟨hu.feed, hu.buffered⟩, hs.control _ _⟩

theorem sseInv_init {log : List TaskEvent} {published : Int} (hl : Increasing eventKey log)
    (hd : published ≤ latestEventId log) : SseInv after (.connect log published after) :=
  .running published ⟨hl, hd, trivial, rfl, by simp [SseState.connect]⟩
    ⟨rfl, by simp [SseState.connect]⟩ ⟨rfl, rfl⟩

/-- A step of the stream itself. -/
theorem sseInv_own (hr : Running after s) (hu : Unread s p) (hst : Stage s p) {l : SseLabel}
    {s' : SseState} (hs : sseNext s l = some s') (hl : l.isOwn = true) : SseInv after s' := by
  have hstage := hst
  unfold Stage at hst
  cases l with
  | commit | publish | lag | endLive => cases hl
  | serviceState current serialized =>
    simp only [sseNext] at hs
    split at hs
    · rename_i control hp
      rw [hp] at hst
      cases hs
      split
      · have hr' : Running after { s with serviceGeneration := control.generation, pc := .readHigh } :=
          ⟨hr.increasing, hr.published, hr.contig, hr.position, hr.noReset⟩
        refine .running p (hr'.yield rfl fun _ => nofun) ⟨hu.feed, hu.buffered⟩ (.inl ⟨hst.1, ?_⟩)
        show events (s.out ++ [_]) = []
        rw [events_snoc, hst.2]; rfl
      · exact SseInv.terminate hr.yielded
    · cases hs; exact SseInv.terminate hr.yielded
    · cases hs
  | heartbeat =>
    have hy : SseInv after (s.yield .heartbeat) :=
      .running p (hr.yield rfl fun _ => nofun) ⟨hu.feed, hu.buffered⟩ (hstage.yield rfl)
    simp only [sseNext] at hs
    split at hs <;> cases hs <;> exact hy
  | service ready ended serialized =>
    simp only [sseNext] at hs
    split at hs
    · cases hs
    · have ho := SseInv.onService hr hu hstage ready ended serialized rfl
      split at hs
      · cases hs
        rcases ho with ⟨hp, hy⟩ | ⟨-, hr', hu', hs'⟩
        · exact .ended hp hy
        · exact .running p hr' hu' hs'
      · cases hs
        rcases ho with ⟨hp, hy⟩ | ⟨-, hr', hu', hs'⟩
        · exact .ended hp hy
        · exact .running p hr' hu' hs'
      · rename_i hp
        cases hs
        rcases ho with ⟨hd, hy⟩ | ⟨hp', hr', hu', hs'⟩
        · rw [if_pos hd]; exact .ended hd hy
        · unfold Stage at hs'
          rw [hp', hp] at hs'
          rw [if_neg (by rw [hp', hp]; nofun)]
          exact SseInv.toLive hr' hu' hs'.1 hs'.2
      · cases hs
  | read ok serialized =>
    simp only [sseNext] at hs
    split at hs
    · rename_i hp
      rw [hp] at hst
      cases hs
      split
      · exact SseInv.onHigh hr hu hst serialized
      · exact SseInv.terminate hr.yielded
    · rename_i high hp
      rw [hp] at hst
      split at hs
      · rename_i page hpage
        cases hs
        obtain ⟨hc, hb⟩ := page_contig hr.increasing hpage
        exact .running p ⟨hr.increasing, hr.published, hr.contig, hr.position, hr.noReset⟩
          ⟨hu.feed, hu.buffered⟩
          ⟨⟨hst.1.high, hst.1.bounded⟩, ⟨hst.2.reach, hst.2.bounded, hst.2.below⟩, hc, hb⟩
      · cases hs; exact SseInv.terminate hr.yielded
    · cases hs
  | emit serialized =>
    simp only [sseNext] at hs
    split at hs
    · rename_i hp
      rw [hp] at hst
      cases hs
      exact SseInv.emitPage hr hu hst.1 hst.2.1 hst.2.2.1 hst.2.2.2 _ serialized
    · rename_i hp
      rw [hp] at hst
      cases hs
      exact SseInv.emitBuffered hr hu hst.1 hst.2.1 hst.2.2 serialized
    · cases hs
  | poll pending =>
    simp only [sseNext] at hs
    split at hs
    · rename_i hp
      rw [hp] at hst
      exact SseInv.drainStep hr hu hst.1 hst.2 hs
    · cases hs
  | pollEnd =>
    simp only [sseNext] at hs
    split at hs
    · rename_i hp
      rw [hp] at hst
      split at hs
      · cases hs
        exact SseInv.drained (s := { s with liveClosed := true })
          ⟨hr.increasing, hr.published, hr.contig, hr.position, hr.noReset⟩
          ⟨hu.feed, hu.buffered⟩ ⟨hst.1.high, hst.1.bounded⟩
          (fun hl hz => ⟨(hst.2 hl hz).contig, (hst.2 hl hz).reach⟩) false
      · cases hs
    · cases hs
  | yielded =>
    simp only [sseNext] at hs
    split at hs
    · rename_i hp
      rw [hp] at hst
      cases hs
      exact SseInv.drained hr hu hst.1 hst.2 true
    · cases hs
  | receive serialized =>
    simp only [sseNext] at hs
    split at hs
    · rename_i hp
      rw [hp] at hst
      split at hs
      · cases hs
      · exact SseInv.receive hr hu hst.1 hst.2 hs
    · cases hs
  | receiveEnd =>
    simp only [sseNext] at hs
    split at hs
    · rename_i hp
      rw [hp] at hst
      split at hs
      · cases hs
        exact SseInv.toLive (s := { s with liveClosed := true })
          ⟨hr.increasing, hr.published, hr.contig, hr.position, hr.noReset⟩
          ⟨hu.feed, hu.buffered⟩ ⟨hst.1.high, hst.1.bounded⟩ hst.2
      · cases hs
    · cases hs

theorem sseInv_step {s s' : SseState} {l : SseLabel} (h : SseInv after s)
    (hs : sseNext s l = some s') : SseInv after s' := by
  have hlog : s.log ++ [] = s.log := List.append_nil _
  by_cases hl : l.isOwn = true
  · cases h with
    | ended hp y =>
      -- an ended stream takes no step of its own
      cases l <;> simp [sseNext, hp, SseLabel.isOwn] at hs hl
    | running p hr hu hst => exact sseInv_own hr hu hst hs hl
  · cases l with
    | commit e =>
      simp only [sseNext] at hs
      split at hs
      · rename_i hnew
        cases hs
        have hb : Beyond eventKey s.log [e] := by
          intro x hx y hy
          rw [List.mem_singleton.1 hy]
          simpa using List.all_eq_true.1 hnew x hx
        exact h.environment s.ending (h.yielded.increasing.append (List.pairwise_singleton _ _) hb) hb
          (le_trans h.yielded.published (latestEventId_append _ _)) fun hf => feed_grow hb hf
      · cases hs
    | publish e =>
      simp only [sseNext] at hs
      split at hs
      · rename_i hn
        cases hs
        have := h.environment s.ending (hlog.symm ▸ h.yielded.increasing)
          (beyond_nil s.log) (hlog.symm ▸ eventKey_le_latest hn.mem) fun hf =>
            hlog.symm ▸ feed_publish hf hn
        simpa only [List.append_nil] using this
      · cases hs
    | lag n =>
      cases hs
      have := h.environment s.ending (hlog.symm ▸ h.yielded.increasing)
        (beyond_nil s.log) (hlog.symm ▸ h.yielded.published) fun hf => hlog.symm ▸ feed_lag n hf
      simpa only [List.append_nil] using this
    | endLive =>
      cases hs
      have := h.environment true (hlog.symm ▸ h.yielded.increasing)
        (beyond_nil s.log) (hlog.symm ▸ h.yielded.published) fun hf => hlog.symm ▸ hf
      simpa only [List.append_nil] using this
    | _ => exact absurd rfl hl

theorem sseInv_inductive (after : Int) : (sse after).Inductive (SseInv after) where
  init s hs := by
    obtain ⟨log, published, hl, hd, rfl⟩ := hs
    exact sseInv_init hl hd
  step _ _ _ h hs := sseInv_step h hs

/-! ## The first high mark -/

theorem refill_initialHigh (s : SseState) : s.refill.initialHigh = s.initialHigh := by
  unfold SseState.refill
  split <;> rfl

theorem replay_initialHigh (s : SseState) (high : Int) :
    (s.replay high).initialHigh = s.initialHigh := by
  unfold SseState.replay
  split <;> rfl

theorem toLive_initialHigh (s : SseState) : s.toLive.initialHigh = s.initialHigh := by
  unfold SseState.toLive
  split <;> rfl

theorem onService_initialHigh (s : SseState) (ready : List ServiceStateSnapshot)
    (ended serialized : Bool) : (s.onService ready ended serialized).initialHigh = s.initialHigh := by
  unfold SseState.onService
  dsimp only
  repeat' split
  all_goals rfl

theorem emitPage_initialHigh (s : SseState) (high before : Int) (rest : List TaskEvent)
    (serialized : Bool) : (s.emitPage high before rest serialized).initialHigh = s.initialHigh := by
  unfold SseState.emitPage
  repeat' split
  all_goals first | rfl | exact replay_initialHigh s high

theorem emitBuffered_initialHigh (s : SseState) (rest : List TaskEvent) (serialized : Bool) :
    (s.emitBuffered rest serialized).initialHigh = s.initialHigh := by
  unfold SseState.emitBuffered
  repeat' split
  all_goals first | rfl | exact toLive_initialHigh s

theorem drainStep_initialHigh {s s' : SseState} {left lagged : Nat} {pending : Bool}
    (h : s.drainStep left lagged pending = some s') : s'.initialHigh = s.initialHigh := by
  unfold SseState.drainStep at h
  repeat' split at h
  all_goals cases h
  · rfl
  · exact refill_initialHigh _
  · unfold SseState.bufferEvent
    dsimp only
    repeat' split
    all_goals rfl
  · rfl

theorem receive_initialHigh {s s' : SseState} {serialized : Bool}
    (h : s.receive serialized = some s') : s'.initialHigh = s.initialHigh := by
  unfold SseState.receive at h
  split at h <;> cases h
  · dsimp only
    repeat' split
    all_goals first | rfl | exact toLive_initialHigh _
  · rfl

/-- The first high mark is set once, to the latest id of the log at that read. -/
theorem initialHigh_step {s s' : SseState} {l : SseLabel} (h : sseNext s l = some s') :
    s'.initialHigh = s.initialHigh ∨
      (s.initialHigh = none ∧ s'.initialHigh = some (latestEventId s.log)) := by
  cases l with
  | read ok serialized =>
    simp only [sseNext] at h
    split at h
    · cases h
      split
      · unfold SseState.onHigh
        cases hi : s.initialHigh with
        | none =>
          refine .inr ⟨rfl, ?_⟩
          dsimp only
          split
          · cases serialized <;> rfl
          · rw [replay_initialHigh]; rfl
        | some high =>
          left
          dsimp only
          split
          · cases serialized <;> rfl
          · rw [replay_initialHigh]; rfl
      · exact .inl rfl
    · split at h <;> cases h <;> exact .inl rfl
    · cases h
  | commit | publish | lag | endLive | serviceState | heartbeat =>
    simp only [sseNext] at h
    repeat' split at h
    all_goals cases h
    all_goals exact .inl rfl
  | service ready ended serialized =>
    simp only [sseNext] at h
    repeat' split at h
    all_goals cases h
    all_goals left
    · exact onService_initialHigh s ready ended serialized
    · exact onService_initialHigh s ready ended serialized
    · exact onService_initialHigh s ready ended serialized
    · rw [toLive_initialHigh, onService_initialHigh]
  | emit serialized =>
    simp only [sseNext] at h
    split at h <;> cases h
    · exact .inl (emitPage_initialHigh ..)
    · exact .inl (emitBuffered_initialHigh ..)
  | poll pending =>
    simp only [sseNext] at h
    split at h
    · exact .inl (drainStep_initialHigh h)
    · cases h
  | pollEnd | yielded =>
    simp only [sseNext] at h
    repeat' split at h
    all_goals cases h
    exact .inl (refill_initialHigh _)
  | receive serialized =>
    simp only [sseNext] at h
    repeat' split at h
    · cases h
    · exact .inl (receive_initialHigh h)
    · cases h
  | receiveEnd =>
    simp only [sseNext] at h
    repeat' split at h
    all_goals cases h
    exact .inl (toLive_initialHigh _)

/-! ## The replay -/

/-- **Gapless replay.** In every reachable state of a connection from `after`,
the persisted events yielded so far strictly increase; each is an event of the
log, and every event of the log between `after` and it was yielded before it;
and a reset is only ever sent when `after` was above the log at the first
read, in which case nothing else is. -/
theorem replay_gapless (after : Int) {s : SseState} (h : (sse after).Reachable s) :
    Increasing eventKey (events s.out) ∧
      (∀ pre e post, events s.out = pre ++ e :: post →
        e ∈ s.log ∧ after < eventKey e ∧
          ∀ x ∈ s.log, after < eventKey x → eventKey x < eventKey e → x ∈ pre) ∧
      (∀ n, .reset n ∈ s.out → s.initialHigh = some n ∧ n < after ∧ events s.out = []) ∧
      ∀ l s', sseNext s l = some s' → s'.initialHigh = s.initialHigh ∨
        (s.initialHigh = none ∧ s'.initialHigh = some (latestEventId s.log)) := by
  have hy := ((sseInv_inductive after).reachable s h).yielded
  refine ⟨contig_pairwise hy.contig, fun pre e post he => ?_, hy.resets,
    fun l s' hs => initialHigh_step hs⟩
  have hc := hy.contig
  rw [he] at hc
  have hmem : e ∈ pre ++ e :: post := List.mem_append_right pre List.mem_cons_self
  exact ⟨contig_mem hc e hmem, contig_lt hc e hmem,
    fun x hx hax hxe => contig_before hy.increasing hc hx hax hxe⟩

/-! ## A connection that lags -/

def sampleEvent (id : Nat) (h : 0 < id ∧ id < 2 ^ 63) : TaskEvent :=
  h.elim fun pos upper => .new ⟨id, pos, upper⟩ ⟨5⟩ (.planUpdated ⟨0, []⟩) .epoch

/-- The replay of two events, then a third that the live stream loses. -/
def sampleConnection : List SseLabel :=
  [.serviceState (some ⟨.ready, 0⟩) true, .read true true, .read true true, .emit true, .emit true,
   .publish (sampleEvent 2 (by decide)), .commit (sampleEvent 4 (by decide)), .emit true,
   .poll false, .publish (sampleEvent 4 (by decide)), .lag 1, .poll false, .poll true,
   .heartbeat, .read true true, .read true true, .emit true, .emit true, .poll true, .emit true]

theorem replay_gapless_sample : ∃ s, (sse 0).Reachable s ∧
    (events s.out).map eventKey = [1, 2, 4] ∧ Increasing eventKey (events s.out) := by
  have hrun : (LTS.exec sseNext
      (.connect [sampleEvent 1 (by decide), sampleEvent 2 (by decide)] 1 0) sampleConnection).map
      (fun s => (events s.out).map eventKey) = some [1, 2, 4] := by decide
  obtain ⟨s, hs, heq⟩ := Option.map_eq_some_iff.1 hrun
  have hr : (sse 0).Reachable s :=
    LTS.reachable_of_exec ⟨_, 1, by simp [Increasing, eventKey, sampleEvent, TaskEvent.new],
      by decide, rfl⟩ hs
  exact ⟨s, hr, heq, (replay_gapless 0 hr).1⟩

end CodingAgent.L3.Api
