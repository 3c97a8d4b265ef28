import CodingAgent.Core.Utf8

/-!
# Paths (`std::path` on Unix, `coding-agent-domain/src/value.rs`)

A path is any bytes, not only UTF-8 ones.

* `isCanonical`: what `CanonicalPath::try_from_canonical` checks.
* `isCanonical_iff`: these are the paths `/`, `/a`, `/a/b`, … whose names are
  neither empty nor `.` nor `..`.
* `CanonicalPath.toText`: the text of a path. It is again that of a canonical
  path, but of this very path only if the path is UTF-8 (`ofText_toText`).
-/
namespace CodingAgent.L1.Domain
open CodingAgent.Utf8

/-- The bytes of a `PathBuf`. -/
abbrev PathBuf := List UInt8

def slash : UInt8 := 47

def dot : UInt8 := 46

/-- `std::path::Component`. -/
inductive Component where
  | rootDir
  | curDir
  | parentDir
  | normal (name : List UInt8)
  deriving DecidableEq, Repr

def Component.asOsStr : Component → List UInt8
  | .rootDir => [slash]
  | .curDir => [dot]
  | .parentDir => [dot, dot]
  | .normal name => name

@[simp] theorem asOsStr_normal (name : List UInt8) : (Component.normal name).asOsStr = name := rfl

@[simp] theorem asOsStr_rootDir : Component.rootDir.asOsStr = [slash] := rfl

/-- A piece between two separators; `.` is no component. -/
def pieceComponent (piece : List UInt8) : Option Component :=
  if piece = [] ∨ piece = [dot] then none
  else if piece = [dot, dot] then some .parentDir
  else some (.normal piece)

/-- `Path::components`. A `.` counts where a relative path begins with it. -/
def components (path : PathBuf) : List Component :=
  if path.head? = some slash then
    .rootDir :: ((path.drop 1).splitOn slash).filterMap pieceComponent
  else
    (if (path.splitOn slash).head? = some [dot] then [.curDir] else []) ++
      (path.splitOn slash).filterMap pieceComponent

/-- `PathBuf::push`. -/
def push (path : PathBuf) (piece : List UInt8) : PathBuf :=
  if piece.head? = some slash then piece
  else if path = [] ∨ path.getLast? = some slash then path ++ piece
  else path ++ slash :: piece

/-- `collect::<PathBuf>()`. -/
def collect (components : List Component) : PathBuf :=
  components.foldl (fun path component => push path component.asOsStr) []

def Component.isForbidden : Component → Bool
  | .curDir | .parentDir => true
  | .rootDir | .normal _ => false

/-- mirrors crates/coding-agent-domain/src/value.rs:38-53 -/
def isCanonical (path : PathBuf) : Bool :=
  path.head? = some slash && !(components path).any Component.isForbidden &&
    collect (components path) = path

/-- mirrors crates/coding-agent-domain/src/value.rs:33-58 -/
structure CanonicalPath where
  path : PathBuf
  canonical : isCanonical path = true
  deriving DecidableEq, Repr

/-- `/` -/
def CanonicalPath.root : CanonicalPath := ⟨[slash], by decide⟩

/-- A text column with the text of a canonical path. -/
structure PathText where
  text : String
  canonical : isCanonical (encode text.toList) = true
  deriving DecidableEq, Repr

/-! ## What is canonical -/

/-- A name that may stand in a canonical path. -/
structure IsName (name : List UInt8) : Prop where
  nonempty : name ≠ []
  separator : slash ∉ name
  cur : name ≠ [dot]
  parent : name ≠ [dot, dot]

/-- The path of the names. -/
def render (names : List (List UInt8)) : PathBuf :=
  match names with
  | [] => [slash]
  | name :: names => slash :: name ++ names.flatMap (slash :: ·)

theorem head?_ne_slash {name : List UInt8} (h : slash ∉ name) : name.head? ≠ some slash := by
  intro hhead
  exact h (List.mem_of_mem_head? hhead)

theorem collect_names {names : List (List UInt8)} (h : ∀ name ∈ names, IsName name)
    {path : PathBuf} (hpath : path ≠ []) (hlast : path.getLast? ≠ some slash) :
    (names.map Component.normal).foldl (fun path component => push path component.asOsStr) path =
      path ++ names.flatMap (slash :: ·) := by
  induction names generalizing path with
  | nil => simp
  | cons name names ih =>
    obtain ⟨hne, hsep, -, -⟩ := h name List.mem_cons_self
    have hpush : push path name = path ++ slash :: name := by
      unfold push
      rw [if_neg (head?_ne_slash hsep), if_neg (not_or.2 ⟨hpath, hlast⟩)]
    have hlast' : (path ++ slash :: name).getLast? ≠ some slash := by
      rw [List.getLast?_append, List.getLast?_cons_of_ne_nil hne]
      cases hl : name.getLast? with
      | none => exact absurd (List.getLast?_eq_none_iff.1 hl) hne
      | some b =>
        intro heq
        have hb : b = slash := by simpa using heq
        exact hsep (hb ▸ List.mem_of_getLast? hl)
    simp only [List.map_cons, List.foldl_cons, asOsStr_normal]
    rw [hpush, ih (fun n hn => h n (List.mem_cons_of_mem _ hn)) (by simp) hlast']
    simp

/-- The components of such a path give it back. -/
theorem collect_render {names : List (List UInt8)} (h : ∀ name ∈ names, IsName name) :
    collect (.rootDir :: names.map .normal) = render names := by
  unfold collect
  simp only [List.foldl_cons, asOsStr_rootDir]
  have hroot : push [] [slash] = [slash] := rfl
  rw [hroot]
  cases names with
  | nil => rfl
  | cons name names =>
    obtain ⟨hne, hsep, -, -⟩ := h name List.mem_cons_self
    have hpush : push [slash] name = slash :: name := by
      unfold push
      rw [if_neg (head?_ne_slash hsep), if_pos (.inr rfl)]
      rfl
    have hlast : (slash :: name).getLast? ≠ some slash := by
      rw [List.getLast?_cons_of_ne_nil hne]
      exact fun hl => hsep (List.mem_of_getLast? hl)
    simp only [List.map_cons, List.foldl_cons, asOsStr_normal]
    rw [hpush, collect_names (fun n hn => h n (List.mem_cons_of_mem _ hn)) (by simp) hlast]
    rfl

theorem splitOn_names {name : List UInt8} {names : List (List UInt8)} (hname : slash ∉ name)
    (h : ∀ name ∈ names, slash ∉ name) :
    (name ++ names.flatMap (slash :: ·)).splitOn slash = name :: names := by
  induction names generalizing name with
  | nil => simpa using List.splitOn_eq_singleton hname
  | cons next names ih =>
    rw [List.flatMap_cons, List.cons_append,
      List.splitOn_append_cons_self_of_not_mem hname,
      ih (h next List.mem_cons_self) fun n hn => h n (List.mem_cons_of_mem _ hn)]

theorem not_mem_of_mem_splitOn {bytes piece : List UInt8} (h : piece ∈ bytes.splitOn slash) :
    slash ∉ piece := by
  induction bytes generalizing piece with
  | nil =>
    obtain rfl := List.mem_singleton.1 h
    exact List.not_mem_nil
  | cons b bytes ih =>
    rw [List.splitOn_cons_eq_if_modifyHead] at h
    split at h
    · rcases List.mem_cons.1 h with rfl | h
      · exact List.not_mem_nil
      · exact ih h
    · rename_i hb
      obtain ⟨first, rest, heq⟩ := List.exists_cons_of_ne_nil (List.splitOn_ne_nil slash bytes)
      rw [heq] at h ih
      rcases List.mem_cons.1 h with rfl | h
      · intro hmem
        rcases List.mem_cons.1 hmem with hslash | hmem
        · exact hb (by simp [← hslash])
        · exact ih List.mem_cons_self hmem
      · exact ih (List.mem_cons_of_mem _ h)

theorem pieceComponent_name {name : List UInt8} (h : IsName name) :
    pieceComponent name = some (.normal name) := by
  unfold pieceComponent
  rw [if_neg (not_or.2 ⟨h.nonempty, h.cur⟩), if_neg h.parent]

theorem components_render {names : List (List UInt8)} (h : ∀ name ∈ names, IsName name) :
    components (render names) = .rootDir :: names.map .normal := by
  have hpieces : ∀ names : List (List UInt8), (∀ name ∈ names, IsName name) →
      names.filterMap pieceComponent = names.map .normal := by
    intro names h
    induction names with
    | nil => rfl
    | cons name names ih =>
      rw [List.filterMap_cons_some (pieceComponent_name (h name List.mem_cons_self)),
        ih fun n hn => h n (List.mem_cons_of_mem _ hn), List.map_cons]
  cases names with
  | nil => rfl
  | cons name names =>
    unfold components
    rw [if_pos (show (render (name :: names)).head? = some slash from rfl)]
    show Component.rootDir :: List.filterMap pieceComponent
      ((name ++ names.flatMap (slash :: ·)).splitOn slash) = _
    rw [splitOn_names (h name List.mem_cons_self).separator
      fun n hn => (h n (List.mem_cons_of_mem _ hn)).separator, hpieces _ h]

/-- The components of an absolute path without `..` are the root and names. -/
theorem components_absolute {path : PathBuf} (hroot : path.head? = some slash)
    (hallowed : (components path).any Component.isForbidden = false) :
    ∃ names : List (List UInt8), (∀ name ∈ names, IsName name) ∧
      components path = .rootDir :: names.map Component.normal := by
  unfold components at hallowed ⊢
  rw [if_pos hroot] at hallowed ⊢
  have hpieces : ∀ piece ∈ (path.drop 1).splitOn slash, slash ∉ piece :=
    fun piece => not_mem_of_mem_splitOn
  generalize (path.drop 1).splitOn slash = pieces at hallowed hpieces ⊢
  induction pieces with
  | nil => exact ⟨[], List.forall_mem_nil _, rfl⟩
  | cons piece pieces ih =>
    rw [List.any_cons, Bool.or_eq_false_iff] at hallowed
    have hrest := fun p hp => hpieces p (List.mem_cons_of_mem _ hp)
    cases hpiece : pieceComponent piece with
    | none =>
      rw [List.filterMap_cons_none hpiece] at hallowed ⊢
      exact ih (by rw [List.any_cons, Bool.or_eq_false_iff]; exact hallowed) hrest
    | some component =>
      rw [List.filterMap_cons_some hpiece] at hallowed ⊢
      obtain ⟨hfirst, hothers⟩ := Bool.or_eq_false_iff.1 (List.any_cons ▸ hallowed.2)
      obtain ⟨names, hnames, heq⟩ :=
        ih (by rw [List.any_cons, Bool.or_eq_false_iff]; exact ⟨rfl, hothers⟩) hrest
      unfold pieceComponent at hpiece
      split at hpiece
      · cases hpiece
      · rename_i hskip
        split at hpiece
        · cases hpiece
          cases hfirst
        · rename_i hparent
          cases hpiece
          obtain ⟨hempty, hcur⟩ := not_or.1 hskip
          refine ⟨piece :: names, List.forall_mem_cons.2
            ⟨⟨hempty, hpieces piece List.mem_cons_self, hcur, hparent⟩, hnames⟩, ?_⟩
          rw [(List.cons.inj heq).2]
          rfl

/-- The canonical paths are the paths of names. -/
theorem isCanonical_iff {path : PathBuf} : isCanonical path = true ↔
    ∃ names : List (List UInt8), (∀ name ∈ names, IsName name) ∧ path = render names := by
  unfold isCanonical
  simp only [Bool.and_eq_true, decide_eq_true_eq, Bool.not_eq_true']
  constructor
  · rintro ⟨⟨hroot, hallowed⟩, hcollect⟩
    obtain ⟨names, hnames, heq⟩ := components_absolute hroot hallowed
    rw [heq, collect_render hnames] at hcollect
    exact ⟨names, hnames, hcollect.symm⟩
  · rintro ⟨names, hnames, rfl⟩
    rw [components_render hnames]
    refine ⟨⟨by cases names <;> rfl, ?_⟩, collect_render hnames⟩
    rw [List.any_cons, List.any_map]
    exact List.any_eq_false.2 fun name _ => Bool.false_ne_true

/-! ## The text of a path -/

theorem encode_append (a b : List Char) : encode (a ++ b) = encode a ++ encode b := by
  simp [encode]

theorem encode_slash (text : List Char) : encode ('/' :: text) = slash :: encode text := rfl

/-- The text of a name is that of a name. -/
theorem isName_text {name : List UInt8} (h : IsName name) : IsName (encode (lossy name)) := by
  have hback : ∀ bytes : List UInt8, (∀ b ∈ bytes, b = dot) → encode (lossy name) = bytes →
      name = bytes := by
    intro bytes hdots heq
    rw [← heq]
    refine (encode_lossy name fun hmem => ?_).symm
    have hbyte : 0xEF ∈ bytes := by
      rw [← heq]
      exact List.mem_flatMap.2 ⟨_, hmem, by decide⟩
    exact absurd (hdots _ hbyte) (by decide)
  refine ⟨fun hnil => h.nonempty (hback [] (List.forall_mem_nil _) hnil), fun hmem => ?_,
    fun hcur => h.cur (hback _ (by simp) hcur), fun hpar => h.parent (hback _ (by simp) hpar)⟩
  obtain ⟨c, hc, hb⟩ := List.mem_flatMap.1 hmem
  obtain ⟨hone, rfl⟩ := encode_char_ascii hb (by decide)
  rcases mem_lossy name hc with hreplaced | hall
  · revert hreplaced
    decide
  · exact h.separator (hall slash hb)

theorem lossy_names (name : List UInt8) (names : List (List UInt8)) :
    encode (lossy (name ++ names.flatMap (slash :: ·))) =
      encode (lossy name) ++ (names.map fun name => encode (lossy name)).flatMap (slash :: ·) := by
  induction names generalizing name with
  | nil => simp
  | cons next names ih =>
    have hslash : lossy (name ++ slash :: (next ++ names.flatMap (slash :: ·))) =
        lossy name ++ '/' :: lossy (next ++ names.flatMap (slash :: ·)) :=
      lossy_ascii (by decide) _ _
    rw [List.flatMap_cons, List.cons_append, hslash, encode_append, encode_slash, ih next]
    simp

/-- The text of a canonical path is that of a canonical path. -/
theorem isCanonical_text {path : PathBuf} (h : isCanonical path = true) :
    isCanonical (encode (lossy path)) = true := by
  obtain ⟨names, hnames, rfl⟩ := isCanonical_iff.1 h
  refine isCanonical_iff.2 ⟨names.map fun name => encode (lossy name), ?_, ?_⟩
  · intro text htext
    obtain ⟨name, hname, rfl⟩ := List.mem_map.1 htext
    exact isName_text (hnames name hname)
  · cases names with
    | nil => decide
    | cons name names =>
      have hroot : lossy (slash :: (name ++ names.flatMap (slash :: ·))) =
          '/' :: lossy (name ++ names.flatMap (slash :: ·)) := lossy_ascii (by decide) [] _
      show encode (lossy (slash :: (name ++ names.flatMap (slash :: ·)))) = _
      rw [hroot, encode_slash, lossy_names]
      rfl

namespace CanonicalPath

/-- `path.to_string()`, through `Path::display`.
mirrors crates/coding-agent-domain/src/value.rs:70-74 -/
def toText (p : CanonicalPath) : PathText :=
  ⟨String.ofList (lossy p.path), by rw [String.toList_ofList]; exact isCanonical_text p.canonical⟩

/-- `PathBuf::from` of a text column. -/
def ofText (t : PathText) : CanonicalPath := ⟨encode t.text.toList, t.canonical⟩

/-- The path is UTF-8. -/
def IsUtf8 (p : CanonicalPath) : Prop := Utf8.IsUtf8 p.path

/-- A path read back from its text is the path exactly if it is UTF-8. -/
theorem ofText_toText {p : CanonicalPath} : ofText p.toText = p ↔ p.IsUtf8 := by
  unfold IsUtf8
  rw [isUtf8_iff]
  unfold ofText toText
  simp only [String.toList_ofList]
  constructor
  · exact fun h => congrArg CanonicalPath.path h
  · intro h
    cases p
    simpa using h

end CanonicalPath

/-- Two paths of the same text. -/
example : lossy [slash, 97, 0xFF] = lossy [slash, 97, 0xFE] := by decide

end CodingAgent.L1.Domain
