import CodingAgent.Core.Percent
import CodingAgent.L4App.RepositoryDiscovery
import Mathlib.Data.List.DropRight

/-!
# Static assets (`coding-agent-app/src/static_assets.rs`)

Which embedded file answers a request: the one its decoded path names, or the
page of the single-page application for a navigation to a path that names
none. The path is percent-decoded once, checked, and only then compared with
the reserved prefixes.

The table of the embedded files, their types and the `Accept` header are
parameters.

* `percentDecode_eq_some`, `percentDecode_eq_none`: the decoder undoes every
  percent-encoding, and refuses exactly the malformed texts.
* `normalizedAssetPath_eq_some`: the paths that are looked up.
* `static_asset_paths`: with these, no spelling of a reserved path reaches the
  fallback.
-/
namespace CodingAgent.L4.App.StaticAssets
open Percent
open Discovery (fromUtf8 fromUtf8_eq_some)

/-! ## Decoding -/

/-- mirrors crates/coding-agent-app/src/static_assets.rs:120-127 -/
def hexValue (value : UInt8) : Option UInt8 :=
  if 48 ≤ value ∧ value ≤ 57 then some (value - 48)
  else if 97 ≤ value ∧ value ≤ 102 then some (value - 97 + 10)
  else if 65 ≤ value ∧ value ≤ 70 then some (value - 65 + 10)
  else none

/-- The loop, from the output so far.
mirrors crates/coding-agent-app/src/static_assets.rs:103-117 -/
def percentDecodeFrom (output : List UInt8) : List UInt8 → Option (List UInt8)
  | [] => some output
  | b :: rest =>
    if b ≠ mark then percentDecodeFrom (output ++ [b]) rest
    else
      match rest with
      | high :: low :: rest =>
        match hexValue high, hexValue low with
        | some high, some low => percentDecodeFrom (output ++ [high <<< 4 ||| low]) rest
        | _, _ => none
      | _ => none

/-- mirrors crates/coding-agent-app/src/static_assets.rs:102-118 -/
def percentDecode (input : List UInt8) : Option (List UInt8) := percentDecodeFrom [] input

/-! ## Paths -/

def isHidden (segment : List Char) : Bool :=
  segment = ['.'] || segment = ['.', '.'] || segment.head? = some '.'

/-- mirrors crates/coding-agent-app/src/static_assets.rs:80-100 -/
def normalizedAssetPath (rawPath : String) : Option String :=
  match percentDecode (Utf8.encode rawPath.toList) with
  | none => none
  | some decoded =>
    match (fromUtf8 decoded).map String.toList with
    | some ('/' :: relative) =>
      if relative.head? = some '/' || relative.contains '\\' || relative.contains '\x00' ||
          relative.contains ':' then none
      else if (relative.splitOn '/').any isHidden then none
      else some (String.ofList relative)
    | _ => none

/-- mirrors crates/coding-agent-app/src/static_assets.rs:138-140 -/
def protectedPrefix (path : String) : Bool :=
  path = "api" || path.toList.take 4 = "api/".toList || path = "_local" ||
    path.toList.take 7 = "_local/".toList

/-- What `path.trim_end_matches('/').rsplit('/').next()` is. -/
def finalSegment (path : String) : List Char :=
  ((path.toList.rdropWhile (· = '/')).splitOn '/').getLast?.getD []

/-! ## Responses -/

inductive Method where
  | get
  | head
  | other (name : String)
  deriving DecidableEq, Repr

structure Request (HeaderMap : Type) where
  method : Method
  path : String
  headers : HeaderMap

/-- What the build embeds, and what the crates say of a path and of the
`Accept` header. -/
structure Web (HeaderMap : Type) where
  embeddedAsset : String → Option (List UInt8)
  contentType : String → String
  immutable : String → Bool
  acceptsHtml : HeaderMap → Bool

structure Response where
  status : Nat
  contentType : Option String
  cacheControl : String
  contentLength : Nat
  body : List UInt8
  deriving DecidableEq, Repr

variable {HeaderMap : Type} (web : Web HeaderMap) (request : Request HeaderMap)

/-- mirrors crates/coding-agent-app/src/static_assets.rs:129-136 -/
def spaFallbackAllowed (path : String) (headers : HeaderMap) : Bool :=
  if protectedPrefix path then false
  else !(finalSegment path).contains '.' && web.acceptsHtml headers

/-- mirrors crates/coding-agent-app/src/static_assets.rs:199-222 -/
def assetResponse (path : String) (bytes : List UInt8) (headOnly : Bool) : Response where
  status := 200
  contentType := some (web.contentType path)
  cacheControl :=
    if web.contentType path = "text/html" then "no-store"
    else if web.immutable path then "public,max-age=31536000,immutable"
    else "no-store"
  contentLength := bytes.length
  body := if headOnly then [] else bytes

/-- mirrors crates/coding-agent-app/src/static_assets.rs:224-231 -/
def notFound : Response where
  status := 404
  contentType := none
  cacheControl := "no-store"
  contentLength := 0
  body := []

/-- The ways a request is answered. -/
inductive Route where
  | notFound
  | exact (path : String) (bytes : List UInt8)
  /-- the page of the application, where it is embedded -/
  | fallback
  deriving DecidableEq, Repr

/-- The decisions of `response_for`.
mirrors crates/coding-agent-app/src/static_assets.rs:57-73 -/
def route : Route :=
  if request.method ≠ .get ∧ request.method ≠ .head then .notFound
  else
    match normalizedAssetPath request.path with
    | none => .notFound
    | some path =>
      let exactPath := if path = "" then "index.html" else path
      match web.embeddedAsset exactPath with
      | some bytes => .exact exactPath bytes
      | none => if spaFallbackAllowed web path request.headers then .fallback else .notFound

/-- mirrors crates/coding-agent-app/src/static_assets.rs:56-78 -/
def responseFor : Response :=
  let headOnly := request.method = .head
  match route web request with
  | .notFound => notFound
  | .exact path bytes => assetResponse web path bytes headOnly
  | .fallback =>
    match web.embeddedAsset "index.html" with
    | some bytes => assetResponse web "index.html" bytes headOnly
    | none => notFound

/-! ## The decoder -/

/-- A digit of either case has its value, and nothing else has one. -/
theorem hexValue_spec : ∀ c : UInt8,
    if IsHexDigit c then
      hexValue c = some ((hexValue c).getD 0) ∧ (hexValue c).getD 0 < 16 ∧
        ∃ upper, hexDigit upper ((hexValue c).getD 0) = c
    else hexValue c = none :=
  forall_byte (by decide +kernel)

theorem hexValue_eq_some {c v : UInt8} (h : hexValue c = some v) :
    v < 16 ∧ IsHexDigit c ∧ ∃ upper, hexDigit upper v = c := by
  have hspec := hexValue_spec c
  simp only [h, Option.getD_some] at hspec
  by_cases hc : IsHexDigit c
  · rw [if_pos hc] at hspec
    exact ⟨hspec.2.1, hc, hspec.2.2⟩
  · rw [if_neg hc] at hspec
    cases hspec

theorem hexValue_eq_none {c : UInt8} : hexValue c = none ↔ ¬IsHexDigit c := by
  have hspec := hexValue_spec c
  by_cases hc : IsHexDigit c
  · rw [if_pos hc] at hspec
    rw [hspec.1]
    simp [hc]
  · rw [if_neg hc] at hspec
    exact iff_of_true hspec hc

theorem hexValue_hexDigit {v : UInt8} (h : v < 16) (upper : Bool) :
    hexValue (hexDigit upper v) = some v := by
  have key : ∀ upper : Bool, ∀ v : Fin 16,
      hexValue (hexDigit upper (UInt8.ofNat v.val)) = some (UInt8.ofNat v.val) := by decide
  have hv := key upper ⟨v.toNat, UInt8.lt_iff_toNat_lt.1 h⟩
  rwa [UInt8.ofNat_toNat] at hv

section
variable {b high low h l : UInt8} {output rest : List UInt8}

theorem percentDecodeFrom_literal (hb : b ≠ mark) :
    percentDecodeFrom output (b :: rest) = percentDecodeFrom (output ++ [b]) rest := by
  rw [percentDecodeFrom.eq_def]
  simp only [if_pos hb]

theorem percentDecodeFrom_escape (hhigh : hexValue high = some h) (hlow : hexValue low = some l) :
    percentDecodeFrom output (mark :: high :: low :: rest) =
      percentDecodeFrom (output ++ [h <<< 4 ||| l]) rest := by
  rw [percentDecodeFrom, if_neg (by simp), hhigh, hlow]

theorem percentDecodeFrom_malformed (hrest : ¬IsEscape rest) :
    percentDecodeFrom output (mark :: rest) = none := by
  rw [percentDecodeFrom.eq_def]
  simp only [ne_eq, not_true_eq_false, if_false]
  split
  · rename_i high low rest
    rw [isEscape_cons_cons, not_and_or, ← hexValue_eq_none, ← hexValue_eq_none] at hrest
    rcases hrest with hhigh | hlow
    · rw [hhigh]
    · rw [hlow]
      cases hexValue high <;> rfl
  · rfl

end

/-- The three ways a text starts. -/
theorem text_cases (input : List UInt8) :
    input = [] ∨ (∃ b rest, input = b :: rest ∧ b ≠ mark) ∨
    (∃ high low rest h l, input = mark :: high :: low :: rest ∧ hexValue high = some h ∧
      hexValue low = some l) ∨
    ∃ rest, input = mark :: rest ∧ ¬IsEscape rest := by
  cases input with
  | nil => exact .inl rfl
  | cons b rest =>
    by_cases hb : b = mark
    · subst hb
      by_cases hrest : IsEscape rest
      · obtain ⟨high, low, rest, rfl, hhigh, hlow⟩ := hrest
        obtain ⟨h, hh⟩ := Option.ne_none_iff_exists'.1 fun hn => hexValue_eq_none.1 hn hhigh
        obtain ⟨l, hl⟩ := Option.ne_none_iff_exists'.1 fun hn => hexValue_eq_none.1 hn hlow
        exact .inr (.inr (.inl ⟨high, low, rest, h, l, rfl, hh, hl⟩))
      · exact .inr (.inr (.inr ⟨rest, rfl, hrest⟩))
    · exact .inr (.inl ⟨b, rest, rfl, hb⟩)

theorem percentDecodeFrom_encode {spelled : List (Spelling × UInt8)} (h : Escapes spelled)
    (output : List UInt8) :
    percentDecodeFrom output (encode spelled) = some (output ++ bytes spelled) := by
  induction spelled generalizing output with
  | nil => simp [percentDecodeFrom, bytes]
  | cons s spelled ih =>
    obtain ⟨spelling, b⟩ := s
    obtain ⟨hb, hrest⟩ := escapes_cons.1 h
    cases spelling with
    | literal =>
      rw [encode_cons, encodeByte, List.cons_append, List.nil_append,
        percentDecodeFrom_literal (hb rfl), ih hrest]
      simp
    | escaped upperHigh upperLow =>
      rw [encode_cons, encodeByte, List.cons_append, List.cons_append, List.cons_append,
        List.nil_append, percentDecodeFrom_escape (hexValue_hexDigit (high_lt b) _)
          (hexValue_hexDigit (low_lt b) _), join_halves, ih hrest]
      simp

/-- What was read is the bytes of an encoding that is the text read. -/
theorem exists_spelled (input : List UInt8) {output result : List UInt8}
    (h : percentDecodeFrom output input = some result) :
    ∃ spelled, Escapes spelled ∧ encode spelled = input ∧ result = output ++ bytes spelled := by
  induction hn : input.length using Nat.strongRecOn generalizing input output with
  | ind n ih =>
    subst hn
    obtain rfl | ⟨b, rest, rfl, hb⟩ | ⟨high, low, rest, hv, lv, rfl, hhigh, hlow⟩ |
      ⟨rest, rfl, hrest⟩ := text_cases input
    · obtain rfl := Option.some.inj h
      exact ⟨[], by simp [Escapes], rfl, by simp [bytes]⟩
    · rw [percentDecodeFrom_literal hb] at h
      obtain ⟨spelled, hescapes, rfl, rfl⟩ := ih _ (by simp) rest h rfl
      exact ⟨(.literal, b) :: spelled, escapes_cons.2 ⟨fun _ => hb, hescapes⟩, rfl, by simp⟩
    · rw [percentDecodeFrom_escape hhigh hlow] at h
      obtain ⟨spelled, hescapes, rfl, rfl⟩ := ih _ (by simp; omega) rest h rfl
      obtain ⟨hh, -, upperHigh, rfl⟩ := hexValue_eq_some hhigh
      obtain ⟨hl, -, upperLow, rfl⟩ := hexValue_eq_some hlow
      obtain ⟨hhalf, lhalf⟩ := halves_join hh hl
      refine ⟨(.escaped upperHigh upperLow, hv <<< 4 ||| lv) :: spelled,
        escapes_cons.2 ⟨(fun h => by cases h), hescapes⟩, ?_, by simp⟩
      rw [encode_cons, encodeByte, hhalf, lhalf]
      rfl
    · rw [percentDecodeFrom_malformed hrest] at h
      cases h

theorem percentDecodeFrom_eq_none (input : List UInt8) {output : List UInt8} :
    percentDecodeFrom output input = none ↔ Malformed input := by
  induction hn : input.length using Nat.strongRecOn generalizing input output with
  | ind n ih =>
    subst hn
    obtain rfl | ⟨b, rest, rfl, hb⟩ | ⟨high, low, rest, hv, lv, rfl, hhigh, hlow⟩ |
      ⟨rest, rfl, hrest⟩ := text_cases input
    · simp [percentDecodeFrom, not_malformed_nil]
    · rw [percentDecodeFrom_literal hb, malformed_cons hb]
      exact ih _ (by simp) rest rfl
    · rw [percentDecodeFrom_escape hhigh hlow,
        malformed_escape (hexValue_eq_some hhigh).2.1 (hexValue_eq_some hlow).2.1]
      exact ih _ (by simp; omega) rest rfl
    · exact iff_of_true (percentDecodeFrom_malformed hrest) (malformed_of_not_isEscape hrest)

/-- **The decoder undoes every percent-encoding**, and reads nothing else. -/
theorem percentDecode_eq_some {input result : List UInt8} :
    percentDecode input = some result ↔
      ∃ spelled, Escapes spelled ∧ encode spelled = input ∧ bytes spelled = result := by
  constructor
  · intro h
    obtain ⟨spelled, hescapes, hencode, hbytes⟩ := exists_spelled input h
    exact ⟨spelled, hescapes, hencode, by simp [hbytes]⟩
  · rintro ⟨spelled, hescapes, rfl, rfl⟩
    simpa [percentDecode] using percentDecodeFrom_encode hescapes []

/-- **It refuses exactly the texts with a malformed escape.** -/
theorem percentDecode_eq_none {input : List UInt8} :
    percentDecode input = none ↔ Malformed input := percentDecodeFrom_eq_none input

/-! ## The paths -/

theorem fromUtf8_eq_some_iff {decoded : List UInt8} {value : String} :
    fromUtf8 decoded = some value ↔ decoded = Utf8.encode value.toList := by
  rw [fromUtf8_eq_some]
  constructor
  · rintro ⟨⟨text, rfl⟩, rfl⟩
    rw [Utf8.lossy_encode, String.toList_ofList]
  · rintro rfl
    exact ⟨⟨_, rfl⟩, by rw [Utf8.lossy_encode, String.ofList_toList]⟩

/-- A path that stays below the root, whatever it is joined to. -/
structure Safe (path : String) : Prop where
  relative : path.toList.head? ≠ some '/'
  segments : ∀ segment ∈ path.toList.splitOn '/', segment.head? ≠ some '.'
  chars : ∀ c ∈ path.toList, c ≠ '\\' ∧ c ≠ '\x00' ∧ c ≠ ':'

theorem isHidden_iff (segment : List Char) :
    isHidden segment = true ↔ segment.head? = some '.' := by
  unfold isHidden
  constructor
  · intro h
    simp only [Bool.or_eq_true, decide_eq_true_eq] at h
    rcases h with (rfl | rfl) | h
    · rfl
    · rfl
    · exact h
  · intro h
    simp [h]

/-- The two checks of a relative path. -/
theorem safe_iff (relative : List Char) :
    (¬(relative.head? = some '/' || relative.contains '\\' || relative.contains '\x00' ||
        relative.contains ':') = true ∧ ¬(relative.splitOn '/').any isHidden = true) ↔
      Safe (String.ofList relative) := by
  simp only [Bool.or_eq_true, decide_eq_true_eq, List.contains_iff_mem, List.any_eq_true,
    isHidden_iff, not_or, not_exists, not_and]
  constructor
  · rintro ⟨⟨⟨⟨hslash, hback⟩, hnul⟩, hcolon⟩, hsegments⟩
    constructor
    · rwa [String.toList_ofList]
    · rwa [String.toList_ofList]
    · rw [String.toList_ofList]
      exact fun c hc => ⟨ne_of_mem_of_not_mem hc hback, ne_of_mem_of_not_mem hc hnul,
        ne_of_mem_of_not_mem hc hcolon⟩
  · rintro ⟨hslash, hsegments, hchars⟩
    rw [String.toList_ofList] at hslash hsegments hchars
    exact ⟨⟨⟨⟨hslash, fun h => (hchars _ h).1 rfl⟩, fun h => (hchars _ h).2.1 rfl⟩,
      fun h => (hchars _ h).2.2 rfl⟩, hsegments⟩

/-- **The paths that are looked up.** -/
theorem normalizedAssetPath_eq_some {rawPath path : String} :
    normalizedAssetPath rawPath = some path ↔
      percentDecode (Utf8.encode rawPath.toList) = some (Utf8.encode ('/' :: path.toList)) ∧
        Safe path := by
  have hsafe := safe_iff path.toList
  rw [String.ofList_toList] at hsafe
  have htext : ('/' :: path.toList) = (String.ofList ('/' :: path.toList)).toList :=
    String.toList_ofList.symm
  unfold normalizedAssetPath
  constructor
  · intro h
    split at h
    · cases h
    · rename_i decoded hdecoded
      split at h
      · rename_i relative hrelative
        obtain ⟨value, hvalue, hlist⟩ := Option.map_eq_some_iff.1 hrelative
        split at h
        · cases h
        split at h
        · cases h
        rename_i hchars hsegments
        cases h
        rw [String.toList_ofList, ← hlist, hdecoded, fromUtf8_eq_some_iff.1 hvalue]
        exact ⟨rfl, (safe_iff relative).1 ⟨hchars, hsegments⟩⟩
      · cases h
  · rintro ⟨hdecoded, h⟩
    obtain ⟨hchars, hsegments⟩ := hsafe.2 h
    have hvalue := fromUtf8_eq_some_iff.2 (congrArg Utf8.encode htext)
    rw [hdecoded]
    simp only [hvalue, Option.map_some, String.toList_ofList, if_neg hchars, if_neg hsegments,
      String.ofList_toList]

example : normalizedAssetPath "/a%73sets/%61.js" = some "assets/a.js" := by decide +kernel

example : normalizedAssetPath "/assets/%2E%2e/secret" = none := by decide +kernel

/-! ## Reserved paths -/

/-- What is decoded is `/api` or `/_local`, or below one of them. -/
def Reserved (decoded : List UInt8) : Prop :=
  decoded = Utf8.encode "/api".toList ∨ Utf8.encode "/api/".toList <+: decoded ∨
    decoded = Utf8.encode "/_local".toList ∨ Utf8.encode "/_local/".toList <+: decoded

/-- A text that starts with the bytes of another starts with it. -/
theorem prefix_of_encode {a b : List Char} (h : Utf8.encode a <+: Utf8.encode b) : a <+: b := by
  obtain ⟨rest, h⟩ := h
  have hlossy : ∀ a : List Char, Utf8.lossy (Utf8.encode a ++ rest) = a ++ Utf8.lossy rest := by
    intro a
    induction a with
    | nil => rfl
    | cons c a ih =>
      rw [Utf8.encode, List.flatMap_cons, List.append_assoc, Utf8.lossy_char, ← Utf8.encode, ih]
      rfl
  exact ⟨Utf8.lossy rest, by rw [← hlossy, h, Utf8.lossy_encode]⟩

theorem protectedPrefix_of_reserved {path : String}
    (h : Reserved (Utf8.encode ('/' :: path.toList))) : protectedPrefix path = true := by
  have whole : ∀ text : String, Utf8.encode ('/' :: path.toList) = Utf8.encode ('/' :: text.toList) →
      path = text := fun text h => String.toList_inj.1 (List.cons.inj (Utf8.encode_inj.1 h)).2
  have below : ∀ text : String, Utf8.encode ('/' :: text.toList) <+: Utf8.encode ('/' :: path.toList) →
      path.toList.take text.toList.length = text.toList := fun text h =>
    (List.prefix_iff_eq_take.1 (List.cons_prefix_cons.1 (prefix_of_encode h)).2).symm
  simp only [protectedPrefix, Bool.or_eq_true, decide_eq_true_eq]
  rcases h with h | h | h | h
  · exact .inl (.inl (.inl (whole "api" h)))
  · exact .inl (.inl (.inr (below "api/" h)))
  · exact .inl (.inr (whole "_local" h))
  · exact .inr (below "_local/" h)

/-- Only an unreserved path reaches the fallback. -/
theorem not_reserved_of_fallback {decoded : List UInt8}
    (hdecoded : percentDecode (Utf8.encode request.path.toList) = some decoded)
    (h : route web request = .fallback) : ¬Reserved decoded := by
  intro hreserved
  unfold route at h
  split at h
  · cases h
  split at h
  · cases h
  · rename_i path hpath
    have hpath := (normalizedAssetPath_eq_some.1 hpath).1
    rw [hdecoded, Option.some.injEq] at hpath
    subst hpath
    have hprotected := protectedPrefix_of_reserved hreserved
    simp only [spaFallbackAllowed, hprotected, if_true] at h
    split at h <;> cases h

/-- **Static asset paths.** A path is looked up only if it is the whole
decoding of the request's path and safe; the decoder undoes every
percent-encoding and refuses every malformed escape; and however a reserved
path is encoded, its request does not reach the fallback. -/
theorem static_asset_paths :
    (∀ rawPath path, normalizedAssetPath rawPath = some path →
      percentDecode (Utf8.encode rawPath.toList) = some (Utf8.encode ('/' :: path.toList)) ∧
        Safe path) ∧
    (∀ spelled, Escapes spelled → percentDecode (encode spelled) = some (bytes spelled)) ∧
    (∀ input, Malformed input → percentDecode input = none) ∧
    ∀ {HeaderMap : Type} (web : Web HeaderMap) (request : Request HeaderMap) (decoded : List UInt8),
      percentDecode (Utf8.encode request.path.toList) = some decoded → Reserved decoded →
        route web request ≠ .fallback := by
  refine ⟨?_, ?_, ?_, ?_⟩
  · intro rawPath path h
    exact normalizedAssetPath_eq_some.1 h
  · intro spelled h
    exact percentDecode_eq_some.2 ⟨spelled, h, rfl, rfl⟩
  · intro input h
    exact percentDecode_eq_none.2 h
  · intro HeaderMap web request decoded hdecoded hreserved h
    exact not_reserved_of_fallback web request hdecoded h hreserved

/-- `/%61pi/tasks`, with no embedded file and any `Accept` header good enough. -/
theorem static_asset_paths_sample :
    route ⟨fun _ => none, fun _ => "text/html", fun _ => false, fun _ => true⟩
      ⟨.get, "/%61pi/tasks", ()⟩ ≠ .fallback :=
  static_asset_paths.2.2.2 _ _ (Utf8.encode "/api/tasks".toList) (by decide +kernel)
    (.inr (.inl (by decide +kernel)))

end CodingAgent.L4.App.StaticAssets
