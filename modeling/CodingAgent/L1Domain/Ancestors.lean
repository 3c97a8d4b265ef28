import Mathlib.Data.List.Induction
import CodingAgent.L1Domain.Path

/-!
# Parents and ancestors of a path (`std::path` on Unix)

* `parent_length_lt`: a parent is shorter, so that a walk upwards ends.
* `ancestor_render`: the ancestors of a canonical path are the paths of its
  first names.
* `ancestor_iff`: among canonical paths, they are those that can be stripped
  from the front.
-/
namespace CodingAgent.L1.Domain
open CodingAgent.Utf8

/-- A piece that is no component. -/
def isSkipped (piece : List UInt8) : Bool := (pieceComponent piece).isNone

/-- The length of the root, or of the `.` that a relative path begins with. -/
def frontLength (path : PathBuf) : Nat :=
  if path.head? = some slash ∨ (path.splitOn slash).head? = some [dot] then 1 else 0

/-- `Path::parent`: the path without its last component, and without what
separates that from the one before. -/
def parent (path : PathBuf) : Option PathBuf :=
  match ((path.drop (frontLength path)).splitOn slash).reverse.dropWhile isSkipped with
  | _ :: before =>
    some (path.take (frontLength path) ++ [slash].intercalate (before.dropWhile isSkipped).reverse)
  | [] => if path.take (frontLength path) = [dot] then some [] else none

/-- `path` and what is above it, the items of `Path::ancestors`. -/
inductive Ancestor (above : PathBuf) : PathBuf → Prop
  | refl : Ancestor above above
  | up {path up : PathBuf} : parent path = some up → Ancestor above up → Ancestor above path

/-- `Path::strip_prefix` succeeds. -/
def canStrip (path base : PathBuf) : Bool := (components base).isPrefixOf (components path)

/-- `Path::file_name`. -/
def fileName (path : PathBuf) : Option (List UInt8) :=
  match (components path).getLast? with
  | some (.normal name) => some name
  | _ => none

/-! ## A parent is shorter -/

theorem length_le_intercalate {piece : List UInt8} {pieces : List (List UInt8)} (h : piece ∈ pieces) :
    piece.length ≤ ([slash].intercalate pieces).length := by
  induction pieces with
  | nil => cases h
  | cons first pieces ih =>
    cases hp : pieces with
    | nil =>
      rw [hp, List.mem_singleton] at h
      exact Nat.le_of_eq (by rw [h, List.intercalate_singleton])
    | cons next rest =>
      rw [← hp, List.intercalate_cons_of_ne_nil (by rw [hp]; nofun), List.length_append,
        List.length_append]
      rcases List.mem_cons.1 h with rfl | h
      · omega
      · have := ih h
        omega

theorem intercalate_length_lt {piece : List UInt8} (kept : List (List UInt8))
    {more : List (List UInt8)} (hp : piece ≠ []) (h : piece ∈ more) :
    ([slash].intercalate kept).length < ([slash].intercalate (kept ++ more)).length := by
  induction kept with
  | nil => exact Nat.lt_of_lt_of_le (List.length_pos_of_ne_nil hp) (length_le_intercalate h)
  | cons first kept ih =>
    have hne : kept ++ more ≠ [] := List.append_ne_nil_of_right_ne_nil kept (List.ne_nil_of_mem h)
    rw [List.cons_append, List.intercalate_cons_of_ne_nil hne, List.length_append,
      List.length_append, List.length_singleton]
    cases kept with
    | nil =>
      rw [List.intercalate_singleton]
      omega
    | cons next rest =>
      rw [List.intercalate_cons_of_ne_nil (List.cons_ne_nil next rest), List.length_append,
        List.length_append, List.length_singleton]
      omega

theorem parent_length_lt {path up : PathBuf} (h : parent path = some up) :
    up.length < path.length := by
  have hpath : path.take (frontLength path) ++
      [slash].intercalate ((path.drop (frontLength path)).splitOn slash) = path := by
    rw [List.intercalate_splitOn, List.take_append_drop]
  have hlength := congrArg List.length hpath
  rw [List.length_append] at hlength
  unfold parent at h
  split at h
  · next piece before hdrop =>
    cases h
    have hkept := List.head?_dropWhile_not isSkipped
      ((path.drop (frontLength path)).splitOn slash).reverse
    rw [hdrop] at hkept
    have hpiece : piece ≠ [] := by
      intro hnil
      rw [hnil] at hkept
      exact Bool.noConfusion hkept
    -- the pieces that stay, and behind them the ones that go
    have hsplit := List.takeWhile_append_dropWhile
      (p := isSkipped) (l := ((path.drop (frontLength path)).splitOn slash).reverse)
    rw [hdrop, ← List.takeWhile_append_dropWhile (p := isSkipped) (l := before)] at hsplit
    have hpieces := congrArg List.reverse hsplit
    rw [List.reverse_reverse, List.reverse_append, List.reverse_cons, List.reverse_append,
      List.append_assoc, List.append_assoc] at hpieces
    rw [← hpieces] at hlength
    have hmem : piece ∈ (before.takeWhile isSkipped).reverse ++ ([piece] ++
        (((path.drop (frontLength path)).splitOn slash).reverse.takeWhile isSkipped).reverse) := by
      simp
    have hlt := intercalate_length_lt (before.dropWhile isSkipped).reverse hpiece hmem
    rw [List.length_append]
    omega
  · split at h
    · next hfront =>
      cases h
      rw [hfront] at hlength
      show 0 < path.length
      have : [dot].length = 1 := rfl
      omega
    · cases h

theorem Ancestor.length_le {above path : PathBuf} (h : Ancestor above path) :
    above.length ≤ path.length := by
  induction h with
  | refl => exact Nat.le_refl _
  | up hparent _ ih => exact Nat.le_trans ih (Nat.le_of_lt (parent_length_lt hparent))

theorem Ancestor.antisymm {a b : PathBuf} (h : Ancestor a b) (h' : Ancestor b a) : a = b := by
  cases h with
  | refl => rfl
  | up hparent hup =>
    have hlt := parent_length_lt hparent
    have hle := hup.length_le
    have hle' := h'.length_le
    omega

/-- An ancestor is the path itself or one of its parent. -/
theorem Ancestor.of_parent {above path up : PathBuf} (h : Ancestor above path)
    (hparent : parent path = some up) : above = path ∨ Ancestor above up := by
  cases h with
  | refl => exact .inl rfl
  | up hparent' hup =>
    rw [hparent] at hparent'
    cases hparent'
    exact .inr hup

/-! ## Canonical paths -/

theorem CanonicalPath.ext_path {a b : CanonicalPath} (h : a.path = b.path) : a = b := by
  cases a
  cases b
  cases h
  rfl

theorem components_inj {a b : PathBuf} (ha : isCanonical a = true) (hb : isCanonical b = true)
    (h : components a = components b) : a = b := by
  unfold isCanonical at ha hb
  simp only [Bool.and_eq_true, decide_eq_true_eq] at ha hb
  rw [← ha.2, h, hb.2]

theorem isSkipped_name {name : List UInt8} (h : IsName name) : isSkipped name = false := by
  rw [isSkipped, pieceComponent_name h]
  rfl

theorem splitOn_render {names : List (List UInt8)} (h : ∀ name ∈ names, IsName name)
    (hne : names ≠ []) : ((render names).drop 1).splitOn slash = names := by
  cases names with
  | nil => exact absurd rfl hne
  | cons name names =>
    exact splitOn_names (h name List.mem_cons_self).separator
      fun n hn => (h n (List.mem_cons_of_mem _ hn)).separator

theorem render_eq (names : List (List UInt8)) :
    render names = [slash] ++ [slash].intercalate names := by
  cases names with
  | nil => rfl
  | cons name names =>
    show [slash] ++ (name ++ names.flatMap (slash :: ·)) = _
    induction names generalizing name with
    | nil => simp
    | cons next names ih =>
      have htail := List.append_cancel_left (ih next)
      rw [List.intercalate_cons_cons, ← htail]
      simp

theorem frontLength_render (names : List (List UInt8)) : frontLength (render names) = 1 := by
  cases names <;> exact if_pos (.inl rfl)

theorem dropWhile_skipped {names : List (List UInt8)} (h : ∀ n ∈ names, IsName n) :
    names.reverse.dropWhile isSkipped = names.reverse := by
  cases hr : names.reverse with
  | nil => rfl
  | cons name rest =>
    have hname : name ∈ names := List.mem_reverse.1 (hr ▸ List.mem_cons_self)
    exact List.dropWhile_cons_of_neg (by rw [isSkipped_name (h name hname)]; exact Bool.false_ne_true)

/-- The parent of a canonical path has its names but the last. -/
theorem parent_render {names : List (List UInt8)} {name : List UInt8}
    (h : ∀ n ∈ names ++ [name], IsName n) : parent (render (names ++ [name])) = some (render names) := by
  have hpieces := splitOn_render h (List.append_ne_nil_of_right_ne_nil names (List.cons_ne_nil name []))
  have hfront : (render (names ++ [name])).take 1 = [slash] := by cases names <;> rfl
  have hall := dropWhile_skipped h
  have hnames := dropWhile_skipped fun n hn => h n (List.mem_append_left [name] hn)
  rw [List.reverse_append, List.reverse_singleton, List.singleton_append] at hall
  rw [parent, frontLength_render, hpieces, hfront, List.reverse_append, List.reverse_singleton,
    List.singleton_append, hall]
  show some ([slash] ++ [slash].intercalate (names.reverse.dropWhile isSkipped).reverse) = _
  rw [hnames, List.reverse_reverse, render_eq]

theorem parent_root : parent (render []) = none := by decide

/-- The ancestors of a canonical path are the paths of its first names. -/
theorem ancestor_render {names : List (List UInt8)} (h : ∀ n ∈ names, IsName n) {above : PathBuf} :
    Ancestor above (render names) ↔ ∃ first, first <+: names ∧ above = render first := by
  induction names using List.reverseRecOn with
  | nil =>
    constructor
    · intro ha
      cases ha with
      | refl => exact ⟨[], List.prefix_rfl, rfl⟩
      | up hparent _ => exact absurd (parent_root.symm.trans hparent) nofun
    · rintro ⟨first, hfirst, rfl⟩
      rw [List.prefix_nil.1 hfirst]
      exact .refl
  | append_singleton names name ih =>
    have hnames := fun n hn => h n (List.mem_append_left [name] hn)
    constructor
    · intro ha
      cases ha with
      | refl => exact ⟨names ++ [name], List.prefix_rfl, rfl⟩
      | up hparent hup =>
        rw [parent_render h] at hparent
        cases hparent
        obtain ⟨first, hfirst, rfl⟩ := (ih hnames).1 hup
        exact ⟨first, hfirst.trans (List.prefix_append names [name]), rfl⟩
    · rintro ⟨first, hfirst, rfl⟩
      rcases List.prefix_concat_iff.1 hfirst with rfl | hfirst
      · exact .refl
      · exact .up (parent_render h) ((ih hnames).2 ⟨first, hfirst, rfl⟩)

theorem normal_injective : Function.Injective Component.normal :=
  fun _ _ h => Component.normal.inj h

theorem render_inj {names names' : List (List UInt8)} (h : ∀ n ∈ names, IsName n)
    (h' : ∀ n ∈ names', IsName n) (heq : render names = render names') : names = names' := by
  have hcomponents := components_render h
  rw [heq, components_render h'] at hcomponents
  exact List.map_injective_iff.2 normal_injective (List.cons.inj hcomponents).2.symm

/-- Among canonical paths `strip_prefix` finds the ancestors. -/
theorem canStrip_iff (path base : CanonicalPath) :
    canStrip path.path base.path = true ↔ Ancestor base.path path.path := by
  obtain ⟨names, hnames, hpath⟩ := isCanonical_iff.1 path.canonical
  obtain ⟨first, hfirst, hbase⟩ := isCanonical_iff.1 base.canonical
  rw [hpath, hbase, ancestor_render hnames, canStrip, List.isPrefixOf_iff_prefix,
    components_render hnames, components_render hfirst, List.prefix_cons_inj,
    List.prefix_map_iff_of_injective normal_injective]
  constructor
  · exact fun hstrip => ⟨first, hstrip, rfl⟩
  · rintro ⟨first', hfirst', heq⟩
    rwa [render_inj hfirst (fun n hn => hnames n (hfirst'.subset hn)) heq]

theorem fileName_render {names : List (List UInt8)} {name : List UInt8}
    (h : ∀ n ∈ names ++ [name], IsName n) : fileName (render (names ++ [name])) = some name := by
  rw [fileName, components_render h, List.map_append, List.map_singleton, ← List.cons_append,
    List.getLast?_concat]

/-- The parent of a canonical path is canonical. -/
theorem isCanonical_parent {path up : PathBuf} (hpath : isCanonical path = true)
    (h : parent path = some up) : isCanonical up = true := by
  obtain ⟨names, hnames, rfl⟩ := isCanonical_iff.1 hpath
  cases names using List.reverseRecOn with
  | nil => exact absurd (parent_root.symm.trans h) nofun
  | append_singleton names name =>
    rw [parent_render hnames] at h
    cases h
    exact isCanonical_iff.2 ⟨names, fun n hn => hnames n (List.mem_append_left [name] hn), rfl⟩

end CodingAgent.L1.Domain
