import CodingAgent.Core.Utf16
import CodingAgent.L1Domain.Ancestors
import CodingAgent.L1Domain.Task

/-!
# Repository discovery (`coding-agent-app/src/repository_service.rs`)

`RepositoryDiscovery::discover` on any file system, with any outputs of `git`
and `cargo`; the commands it runs are part of its result.

* `nearestManifest_spec`: the walk upwards finds the nearest manifest within
  the root, if there is one.
* `nearestManifest_loop`: it ends, whatever the two paths are.
* `discovery_iff`: what a success says, and which answers of the two commands
  lead to one.
-/
namespace CodingAgent.L4.App.Discovery
open CodingAgent.L1.Domain CodingAgent.Utf8

/-! ## The file system and the commands -/

/-- The kinds of `io::Error` that are told apart. -/
inductive IoErrorKind where
  | notFound
  | other
  deriving DecidableEq, Repr

inductive FileKind where
  | file
  | directory
  | other
  deriving DecidableEq, Repr

/-- The calls of `std::fs` that are made. -/
structure FileSystem where
  symlinkMetadata : PathBuf → Except IoErrorKind Unit
  metadata : PathBuf → Except IoErrorKind FileKind
  canonicalize : PathBuf → Option CanonicalPath

/-- mirrors crates/coding-agent-app/src/repository_service.rs:6-14 -/
structure Command where
  program : String
  args : List (List UInt8)
  currentDir : PathBuf
  deriving DecidableEq, Repr

/-- The standard output of a command, unless it fails. -/
abbrev CommandRunner := Command → Option (List UInt8)

def osString (text : String) : List UInt8 := encode text.toList

/-- mirrors crates/coding-agent-app/src/repository_service.rs:95-106 -/
def gitCommand (runtimeDir selected : PathBuf) : Command where
  program := "git"
  args := [osString "-C", selected, osString "rev-parse", osString "--show-toplevel"]
  currentDir := runtimeDir

/-- mirrors crates/coding-agent-app/src/repository_service.rs:115-128 -/
def cargoCommand (runtimeDir manifest : PathBuf) : Command where
  program := "cargo"
  args := [osString "locate-project", osString "--workspace", osString "--manifest-path", manifest,
    osString "--message-format", osString "plain"]
  currentDir := runtimeDir

/-- mirrors crates/coding-agent-app/src/repository_service.rs:38-44 -/
structure DiscoveredRepository where
  selectedPath : PathBuf
  displayName : String
  gitRoot : PathBuf
  cargoWorkspaceRoot : PathBuf
  deriving DecidableEq, Repr

/-- mirrors crates/coding-agent-app/src/repository_service.rs:46-58 -/
inductive RepositoryDiscoveryError where
  | pathNotFound
  | pathNotDirectory
  | cargoWorkspaceNotFound
  | cargoWorkspaceOutsideGitRoot
  | commandFailed
  deriving DecidableEq, Repr

/-! ## Discovery -/

section
variable (fs : FileSystem)

/-- mirrors crates/coding-agent-app/src/repository_service.rs:155-175 -/
def validateSelected (path : PathBuf) : Except RepositoryDiscoveryError CanonicalPath :=
  match fs.symlinkMetadata path with
  | .error .notFound => .error .pathNotFound
  | .error .other => .error .commandFailed
  | .ok () =>
    match fs.metadata path with
    | .error .notFound => .error .pathNotFound
    | .error .other => .error .commandFailed
    | .ok .directory =>
      match fs.canonicalize path with
      | some canonical => .ok canonical
      | none => .error .commandFailed
    | .ok _ => .error .pathNotDirectory

/-- `str::from_utf8` -/
def fromUtf8 (bytes : List UInt8) : Option String :=
  if IsUtf8 bytes then some (String.ofList (lossy bytes)) else none

/-- mirrors crates/coding-agent-app/src/repository_service.rs:177-187 -/
def canonicalCommandPath (bytes : List UInt8) : Except RepositoryDiscoveryError CanonicalPath :=
  match fromUtf8 bytes with
  | none => .error .commandFailed
  | some value =>
    if trim value = "" then .error .commandFailed
    else
      match fs.canonicalize (osString (trim value)) with
      | some canonical => .ok canonical
      | none => .error .commandFailed

def cargoToml : List UInt8 := osString "Cargo.toml"

/-- There is a file `Cargo.toml` in the directory. -/
def hasManifest (directory : PathBuf) : Bool :=
  match fs.metadata (push directory cargoToml) with
  | .ok .file => true
  | _ => false

/-- A turn of the loop: it ends with a result, or goes on in a directory.
mirrors crates/coding-agent-app/src/repository_service.rs:191-203 -/
def searchStep (gitRoot directory : PathBuf) :
    Except RepositoryDiscoveryError PathBuf ⊕ PathBuf :=
  if hasManifest fs directory then .inl (.ok (push directory cargoToml))
  else if components directory = components gitRoot then .inl (.error .cargoWorkspaceNotFound)
  else
    match parent directory with
    | some up => .inr up
    | none => .inl (.error .cargoWorkspaceNotFound)

theorem searchStep_length_lt {fs : FileSystem} {gitRoot directory up : PathBuf}
    (h : searchStep fs gitRoot directory = .inr up) : up.length < directory.length := by
  unfold searchStep at h
  split at h
  · cases h
  · split at h
    · cases h
    · split at h
      · next hparent =>
        cases h
        exact parent_length_lt hparent
      · cases h

/-- mirrors crates/coding-agent-app/src/repository_service.rs:189-205 -/
def nearestManifest (selected gitRoot : PathBuf) : Except RepositoryDiscoveryError PathBuf :=
  match _h : searchStep fs gitRoot selected with
  | .inl result => result
  | .inr up => nearestManifest up gitRoot
termination_by selected.length
decreasing_by exact searchStep_length_lt _h

/-- mirrors crates/coding-agent-app/src/repository_service.rs:140-144 -/
def displayName (gitRoot : PathBuf) : Option String :=
  ((fileName gitRoot).map fun name => String.ofList (lossy name)).filter (· ≠ "")

/-- What is left to do once `cargo` has answered.
mirrors crates/coding-agent-app/src/repository_service.rs:130-151 -/
def finish (selected gitRoot : CanonicalPath) (cargoStdout : Option (List UInt8)) :
    Except RepositoryDiscoveryError DiscoveredRepository :=
  match cargoStdout with
  | none => .error .commandFailed
  | some cargoStdout =>
    match canonicalCommandPath fs cargoStdout with
    | .error _ => .error .cargoWorkspaceNotFound
    | .ok workspaceManifest =>
      match parent workspaceManifest.path with
      | none => .error .cargoWorkspaceNotFound
      | some cargoWorkspaceRoot =>
        if canStrip cargoWorkspaceRoot gitRoot.path then
          match displayName gitRoot.path with
          | none => .error .commandFailed
          | some displayName =>
            .ok { selectedPath := selected.path, displayName, gitRoot := gitRoot.path
                  cargoWorkspaceRoot }
        else .error .cargoWorkspaceOutsideGitRoot

/-- mirrors crates/coding-agent-app/src/repository_service.rs:90-152 -/
def discover (runner : CommandRunner) (runtimeDir selected : PathBuf) :
    Except RepositoryDiscoveryError DiscoveredRepository × List Command :=
  match validateSelected fs selected with
  | .error error => (.error error, [])
  | .ok selected =>
    let git := gitCommand runtimeDir selected.path
    match runner git with
    | none => (.error .commandFailed, [git])
    | some gitStdout =>
      match canonicalCommandPath fs gitStdout with
      | .error error => (.error error, [git])
      | .ok gitRoot =>
        if canStrip selected.path gitRoot.path then
          match nearestManifest fs selected.path gitRoot.path with
          | .error error => (.error error, [git])
          | .ok manifest =>
            let cargo := cargoCommand runtimeDir manifest
            (finish fs selected gitRoot (runner cargo), [git, cargo])
        else (.error .commandFailed, [git])

end

/-! ## The walk upwards -/

/-- A loop that leaves `a` with `b` after `n` turns that go on. -/
inductive Loop {α β : Type} (step : α → β ⊕ α) : Nat → α → β → Prop
  | exit {a : α} {b : β} : step a = .inl b → Loop step 0 a b
  | next {n : Nat} {a a' : α} {b : β} : step a = .inr a' → Loop step n a' b → Loop step (n + 1) a b

/-- The manifest in the nearest directory from `selected` up to `gitRoot` that
has one. -/
structure Nearest (fs : FileSystem) (selected gitRoot directory : PathBuf) : Prop where
  within : Ancestor gitRoot directory
  above : Ancestor directory selected
  file : hasManifest fs directory = true
  nearest : ∀ below, Ancestor below selected → Ancestor directory below → hasManifest fs below = true →
    below = directory

variable {fs : FileSystem}

theorem nearestManifest_eq (selected gitRoot : PathBuf) : nearestManifest fs selected gitRoot =
    match searchStep fs gitRoot selected with
    | .inl result => result
    | .inr up => nearestManifest fs up gitRoot := by
  rw [nearestManifest]
  split <;> simp [*]

/-- The walk ends, after as many turns as the path has bytes at the most. -/
theorem nearestManifest_loop (selected gitRoot : PathBuf) :
    ∃ n ≤ selected.length,
      Loop (searchStep fs gitRoot) n selected (nearestManifest fs selected gitRoot) := by
  induction h : selected.length using Nat.strongRecOn generalizing selected with
  | ind k ih =>
    rw [nearestManifest_eq]
    cases hstep : searchStep fs gitRoot selected with
    | inl result => exact ⟨0, Nat.zero_le _, .exit hstep⟩
    | inr up =>
      have hlt := searchStep_length_lt hstep
      obtain ⟨n, hn, hloop⟩ := ih up.length (h ▸ hlt) up rfl
      exact ⟨n + 1, by omega, .next hstep hloop⟩

variable (fs) in
/-- The walk finds the nearest manifest, or there is none. -/
theorem nearestManifest_spec {selected gitRoot : PathBuf} (hselected : isCanonical selected = true)
    (hroot : isCanonical gitRoot = true) (h : Ancestor gitRoot selected) :
    match nearestManifest fs selected gitRoot with
    | .ok manifest =>
      ∃ directory, Nearest fs selected gitRoot directory ∧ manifest = push directory cargoToml
    | .error _ => ∀ directory, Ancestor gitRoot directory → Ancestor directory selected →
        hasManifest fs directory = false := by
  induction h with
  | refl =>
    rw [nearestManifest_eq, searchStep]
    cases hfile : hasManifest fs gitRoot with
    | true =>
      rw [if_pos rfl]
      exact ⟨gitRoot, ⟨.refl, .refl, hfile, fun below hbelow habove _ => hbelow.antisymm habove⟩, rfl⟩
    | false =>
      rw [if_neg Bool.false_ne_true, if_pos rfl]
      intro directory hroot' habove
      rw [habove.antisymm hroot']
      exact hfile
  | @up selected up hparent hup ih =>
    rw [nearestManifest_eq, searchStep]
    cases hfile : hasManifest fs selected with
    | true =>
      rw [if_pos rfl]
      exact ⟨selected, ⟨.up hparent hup, .refl, hfile,
        fun below hbelow habove _ => hbelow.antisymm habove⟩, rfl⟩
    | false =>
      have hne : components selected ≠ components gitRoot := by
        intro heq
        have hlt := parent_length_lt hparent
        have hle := hup.length_le
        rw [components_inj hselected hroot heq] at hlt
        omega
      rw [if_neg Bool.false_ne_true, if_neg hne, hparent]
      have hrest := ih (isCanonical_parent hselected hparent)
      dsimp only
      split at hrest
      · next manifest hmanifest =>
        obtain ⟨directory, hnearest, rfl⟩ := hrest
        rw [hmanifest]
        refine ⟨directory, ⟨hnearest.within, .up hparent hnearest.above, hnearest.file,
          fun below hbelow habove hhas => ?_⟩, rfl⟩
        rcases hbelow.of_parent hparent with rfl | hbelow
        · cases hfile.symm.trans hhas
        · exact hnearest.nearest below hbelow habove hhas
      · next error herror =>
        rw [herror]
        intro directory hwithin habove
        rcases habove.of_parent hparent with rfl | habove
        · exact hfile
        · exact hrest directory hwithin habove

/-! ## The answers of the commands -/

theorem fromUtf8_eq_some {bytes : List UInt8} {value : String} :
    fromUtf8 bytes = some value ↔ IsUtf8 bytes ∧ value = String.ofList (lossy bytes) := by
  unfold fromUtf8
  split
  · next h => simp [h, eq_comm]
  · next h => simp [h]

/-- A path without the white space around its text. -/
def trimmed (path : PathBuf) : PathBuf := osString (trim (String.ofList (lossy path)))

theorem canonicalCommandPath_ok {bytes : List UInt8} {canonical : CanonicalPath} :
    canonicalCommandPath fs bytes = .ok canonical ↔
      IsUtf8 bytes ∧ trim (String.ofList (lossy bytes)) ≠ "" ∧
        fs.canonicalize (trimmed bytes) = some canonical := by
  unfold canonicalCommandPath trimmed
  split
  · next hnone =>
    refine ⟨(fun h => by cases h), fun h => ?_⟩
    exact absurd (fromUtf8_eq_some.2 ⟨h.1, rfl⟩) (by rw [hnone]; nofun)
  · next value hsome =>
    obtain ⟨hutf8, rfl⟩ := fromUtf8_eq_some.1 hsome
    split
    · next hempty => exact ⟨(fun h => by cases h), fun h => absurd hempty h.2.1⟩
    · next hne =>
      split
      · next canonical' hcanonical =>
        rw [hcanonical]
        constructor
        · intro h
          cases h
          exact ⟨hutf8, hne, rfl⟩
        · rintro ⟨-, -, h⟩
          rw [Option.some.inj h]
      · next hnone =>
        rw [hnone]
        exact ⟨(fun h => by cases h), fun h => by cases h.2.2⟩

/-- The line feed at the end of an output. -/
def newline : UInt8 := 10

/-- In front nothing is trimmed from a path that begins with the root. -/
theorem trim_slash (text : List Char) : trim (String.ofList ('/' :: text)) =
    String.ofList ('/' :: text.rdropWhile isWhiteSpace) := by
  have hslash : isWhiteSpace '/' = false := by decide
  rw [trim, String.toList_ofList, List.dropWhile_cons_of_neg (by rw [hslash]; exact Bool.false_ne_true),
    List.reverse_cons, List.dropWhile_append, List.rdropWhile]
  split
  · next hempty =>
    rw [List.isEmpty_iff.1 hempty]
    rfl
  · rw [List.reverse_append]
    rfl

theorem lossy_slash {path : PathBuf} (h : path.head? = some slash) :
    ∃ text, lossy path = '/' :: text := by
  cases path with
  | nil => cases h
  | cons b rest =>
    cases h
    exact ⟨lossy rest, lossy_ascii (show slash.toNat < 128 by decide) [] rest⟩

/-- What a command prints for a path is read as the path without the white
space around it. -/
theorem canonicalCommandPath_line {path : PathBuf} (h : path.head? = some slash)
    {canonical : CanonicalPath} : canonicalCommandPath fs (path ++ [newline]) = .ok canonical ↔
      IsUtf8 path ∧ fs.canonicalize (trimmed path) = some canonical := by
  have hlossy : lossy (path ++ [newline]) = lossy path ++ ['\n'] :=
    lossy_ascii (show newline.toNat < 128 by decide) path []
  have hutf8 : IsUtf8 (path ++ [newline]) ↔ IsUtf8 path := by
    rw [isUtf8_iff, isUtf8_iff, hlossy, encode_append]
    exact List.append_left_inj [newline]
  obtain ⟨text, htext⟩ := lossy_slash h
  have htrim : trim (String.ofList (lossy path ++ ['\n'])) = trim (String.ofList (lossy path)) := by
    rw [htext, List.cons_append, trim_slash, trim_slash, List.rdropWhile_concat_pos _ _ _ (by decide)]
  have hne : trim (String.ofList (lossy path)) ≠ "" := by
    rw [htext, trim_slash, Ne, ← String.toList_inj, String.toList_ofList]
    nofun
  rw [canonicalCommandPath_ok, hutf8, trimmed, hlossy, htrim, ← trimmed]
  exact ⟨fun ⟨hpath, _, hcanonical⟩ => ⟨hpath, hcanonical⟩,
    fun ⟨hpath, hcanonical⟩ => ⟨hpath, hne, hcanonical⟩⟩

/-! ## Success -/

/-- `discover` returns `repository`, with the answers it came from. -/
structure Discovered (fs : FileSystem) (runner : CommandRunner) (runtimeDir path : PathBuf)
    (repository : DiscoveredRepository) (commands : List Command)
    (selected gitRoot workspaceManifest : CanonicalPath) (manifest : PathBuf)
    (gitStdout cargoStdout : List UInt8) : Prop where
  selection : validateSelected fs path = .ok selected
  gitAnswer : runner (gitCommand runtimeDir selected.path) = some gitStdout
  rootRead : canonicalCommandPath fs gitStdout = .ok gitRoot
  contains : canStrip selected.path gitRoot.path = true
  search : nearestManifest fs selected.path gitRoot.path = .ok manifest
  cargoAnswer : runner (cargoCommand runtimeDir manifest) = some cargoStdout
  manifestRead : canonicalCommandPath fs cargoStdout = .ok workspaceManifest
  workspaceRoot : parent workspaceManifest.path = some repository.cargoWorkspaceRoot
  inside : canStrip repository.cargoWorkspaceRoot gitRoot.path = true
  name : displayName gitRoot.path = some repository.displayName
  selectedPath : repository.selectedPath = selected.path
  root : repository.gitRoot = gitRoot.path
  ran : commands = [gitCommand runtimeDir selected.path, cargoCommand runtimeDir manifest]

theorem finish_ok {selected gitRoot : CanonicalPath} {cargoStdout : Option (List UInt8)}
    {repository : DiscoveredRepository} :
    finish fs selected gitRoot cargoStdout = .ok repository ↔
      ∃ stdout workspaceManifest, cargoStdout = some stdout ∧
        canonicalCommandPath fs stdout = .ok workspaceManifest ∧
        parent workspaceManifest.path = some repository.cargoWorkspaceRoot ∧
        canStrip repository.cargoWorkspaceRoot gitRoot.path = true ∧
        displayName gitRoot.path = some repository.displayName ∧
        repository.selectedPath = selected.path ∧ repository.gitRoot = gitRoot.path := by
  constructor
  · intro h
    unfold finish at h
    split at h
    · cases h
    · next stdout =>
      split at h
      · cases h
      · next workspaceManifest hread =>
        split at h
        · cases h
        · next root hparent =>
          split at h
          · next hstrip =>
            split at h
            · cases h
            · next name hname =>
              cases h
              exact ⟨stdout, workspaceManifest, rfl, hread, hparent, hstrip, hname, rfl, rfl⟩
          · cases h
  · rintro ⟨stdout, workspaceManifest, rfl, hread, hparent, hstrip, hname, hselected, hroot⟩
    simp only [finish, hread, hparent, hstrip, if_true, hname]
    rw [← hselected, ← hroot]

theorem discover_ok {runner : CommandRunner} {runtimeDir path : PathBuf}
    {repository : DiscoveredRepository} {commands : List Command} :
    discover fs runner runtimeDir path = (.ok repository, commands) ↔
      ∃ selected gitRoot workspaceManifest manifest gitStdout cargoStdout,
        Discovered fs runner runtimeDir path repository commands selected gitRoot workspaceManifest
          manifest gitStdout cargoStdout := by
  constructor
  · intro h
    unfold discover at h
    split at h
    · cases h
    · next selected hselected =>
      dsimp only at h
      split at h
      · cases h
      · next gitStdout hgit =>
        split at h
        · cases h
        · next gitRoot hroot =>
          split at h
          · next hcontains =>
            split at h
            · cases h
            · next manifest hmanifest =>
              obtain ⟨hfinish, rfl⟩ := Prod.mk.inj h
              obtain ⟨cargoStdout, workspaceManifest, hcargo, hread, hparent, hinside, hname,
                hselectedPath, hgitRoot⟩ := finish_ok.1 hfinish
              exact ⟨selected, gitRoot, workspaceManifest, manifest, gitStdout, cargoStdout,
                hselected, hgit, hroot, hcontains, hmanifest, hcargo, hread, hparent, hinside, hname,
                hselectedPath, hgitRoot, rfl⟩
          · cases h
  · rintro ⟨selected, gitRoot, workspaceManifest, manifest, gitStdout, cargoStdout, h⟩
    have hfinish := finish_ok.2 ⟨cargoStdout, workspaceManifest, h.cargoAnswer, h.manifestRead,
      h.workspaceRoot, h.inside, h.name, h.selectedPath, h.root⟩
    simp only [discover, h.selection, h.gitAnswer, h.rootRead, h.contains, if_true, h.search, hfinish,
      h.ran]

/-! ## What a success says, and when there is one -/

theorem canonical_head (path : CanonicalPath) : path.path.head? = some slash := by
  obtain ⟨names, -, hpath⟩ := isCanonical_iff.1 path.canonical
  rw [hpath]
  cases names <;> rfl

theorem validateSelected_ok {path : PathBuf} {selected : CanonicalPath} :
    validateSelected fs path = .ok selected ↔ fs.symlinkMetadata path = .ok () ∧
      fs.metadata path = .ok .directory ∧ fs.canonicalize path = some selected := by
  constructor
  · intro h
    unfold validateSelected at h
    split at h
    · cases h
    · cases h
    · next hlink =>
      split at h
      · cases h
      · cases h
      · next hdirectory =>
        split at h
        · next hcanonical =>
          cases h
          exact ⟨hlink, hdirectory, hcanonical⟩
        · cases h
      · cases h
  · rintro ⟨hlink, hdirectory, hcanonical⟩
    simp only [validateSelected, hlink, hdirectory, hcanonical]

/-- The name of a directory other than the root is shown. -/
theorem displayName_isSome {gitRoot : CanonicalPath} (h : gitRoot ≠ .root) :
    ∃ name, displayName gitRoot.path = some name := by
  obtain ⟨names, hnames, hpath⟩ := isCanonical_iff.1 gitRoot.canonical
  cases names using List.reverseRecOn with
  | nil =>
    obtain ⟨path, hcanonical⟩ := gitRoot
    cases hpath
    exact absurd rfl h
  | append_singleton names name =>
    have hname := isName_text (hnames name (by simp))
    have hne : String.ofList (lossy name) ≠ "" := by
      intro hempty
      rw [← String.toList_inj, String.toList_ofList] at hempty
      rw [hempty] at hname
      exact hname.nonempty rfl
    refine ⟨String.ofList (lossy name), ?_⟩
    rw [displayName, hpath, fileName_render hnames, Option.map_some, Option.filter_some,
      if_pos (decide_eq_true hne)]

/-- The directories of a repository lie within its Git root, and `cargo` was
asked about the nearest manifest within it. -/
structure Sound (fs : FileSystem) (runtimeDir : PathBuf) (repository : DiscoveredRepository)
    (commands : List Command) : Prop where
  selected : Ancestor repository.gitRoot repository.selectedPath
  workspace : Ancestor repository.gitRoot repository.cargoWorkspaceRoot
  manifest : ∃ directory, Nearest fs repository.selectedPath repository.gitRoot directory ∧
    commands = [gitCommand runtimeDir repository.selectedPath,
      cargoCommand runtimeDir (push directory cargoToml)]

theorem discover_sound {runner : CommandRunner} {runtimeDir path : PathBuf}
    {repository : DiscoveredRepository} {commands : List Command}
    (h : discover fs runner runtimeDir path = (.ok repository, commands)) :
    Sound fs runtimeDir repository commands := by
  obtain ⟨selected, gitRoot, workspaceManifest, manifest, gitStdout, cargoStdout, h⟩ :=
    discover_ok.1 h
  have hselected : Ancestor gitRoot.path selected.path := (canStrip_iff selected gitRoot).1 h.contains
  have hcanonical := isCanonical_parent workspaceManifest.canonical h.workspaceRoot
  have hworkspace := (canStrip_iff ⟨repository.cargoWorkspaceRoot, hcanonical⟩ gitRoot).1 h.inside
  have hspec := nearestManifest_spec fs selected.canonical gitRoot.canonical hselected
  rw [h.search] at hspec
  obtain ⟨directory, hnearest, rfl⟩ := hspec
  refine ⟨?_, ?_, directory, ?_, ?_⟩
  · rw [h.root, h.selectedPath]
    exact hselected
  · rw [h.root]
    exact hworkspace
  · rw [h.root, h.selectedPath]
    exact hnearest
  · rw [h.ran, h.selectedPath]

/-- `git` prints the canonical path of a directory around the selected one, and
`cargo`, asked about the nearest manifest in it, that of a manifest in it. -/
structure Answers (fs : FileSystem) (runner : CommandRunner) (runtimeDir path : PathBuf)
    (selected gitRoot workspaceManifest : CanonicalPath) : Prop where
  present : fs.symlinkMetadata path = .ok ()
  directory : fs.metadata path = .ok .directory
  selection : fs.canonicalize path = some selected
  contains : Ancestor gitRoot.path selected.path
  notRoot : gitRoot ≠ .root
  utf8 : gitRoot.IsUtf8
  rootCanonical : fs.canonicalize gitRoot.path = some gitRoot
  rootDirectory : fs.metadata gitRoot.path = .ok .directory
  git : runner (gitCommand runtimeDir selected.path) = some (gitRoot.path ++ [newline])
  manifest : ∃ directory, Ancestor gitRoot.path directory ∧ Ancestor directory selected.path ∧
    hasManifest fs directory = true
  manifestCanonical : fs.canonicalize workspaceManifest.path = some workspaceManifest
  manifestFile : fs.metadata workspaceManifest.path = .ok .file
  inside : Ancestor gitRoot.path workspaceManifest.path
  cargo : ∀ directory, Nearest fs selected.path gitRoot.path directory →
    runner (cargoCommand runtimeDir (push directory cargoToml)) =
      some (workspaceManifest.path ++ [newline])

/-- Without the white space around it, the line of `git` is still a path of the
root, and that of `cargo` one of a file in a directory within the root. -/
def KeepsMeaning (fs : FileSystem) (gitRoot workspaceManifest : CanonicalPath) : Prop :=
  fs.canonicalize (trimmed gitRoot.path) = some gitRoot ∧ workspaceManifest.IsUtf8 ∧
    ∃ manifest : CanonicalPath, fs.canonicalize (trimmed workspaceManifest.path) = some manifest ∧
      ∃ root, parent manifest.path = some root ∧ Ancestor gitRoot.path root

/-- The text of a path does not end in white space. -/
def EndsPlain (path : PathBuf) : Prop := (lossy path).getLast?.any isWhiteSpace = false

instance (path : PathBuf) : Decidable (EndsPlain path) :=
  inferInstanceAs (Decidable ((lossy path).getLast?.any isWhiteSpace = false))

instance (path : CanonicalPath) : Decidable path.IsUtf8 :=
  inferInstanceAs (Decidable (Utf8.IsUtf8 path.path))

theorem trimmed_eq {path : CanonicalPath} (hutf8 : path.IsUtf8) (h : EndsPlain path.path) :
    trimmed path.path = path.path := by
  obtain ⟨text, htext⟩ := lossy_slash (canonical_head path)
  have hself : text.rdropWhile isWhiteSpace = text := by
    rw [List.rdropWhile_eq_self_iff]
    intro hne
    rw [EndsPlain, htext, List.getLast?_cons_of_ne_nil hne, List.getLast?_eq_some_getLast hne,
      Option.any_some] at h
    rw [h]
    exact Bool.false_ne_true
  rw [trimmed, htext, trim_slash, hself, ← htext, osString, String.toList_ofList]
  exact isUtf8_iff.1 hutf8

/-- A manifest in a repository is not its root. -/
theorem Answers.parent_within {runner : CommandRunner} {runtimeDir path : PathBuf}
    {selected gitRoot workspaceManifest : CanonicalPath}
    (h : Answers fs runner runtimeDir path selected gitRoot workspaceManifest) :
    ∃ root, parent workspaceManifest.path = some root ∧ Ancestor gitRoot.path root := by
  have hfile := h.manifestFile
  have hinside := h.inside
  generalize workspaceManifest.path = manifest at hfile hinside ⊢
  cases hinside with
  | refl => cases hfile.symm.trans h.rootDirectory
  | up hparent hup => exact ⟨_, hparent, hup⟩

/-- **Discovery.** A success has its directories within the Git root and the
nearest manifest there; the walk ends; and where the commands answer well there
is a success exactly if their lines keep their meaning without the white space
around them, as they do where the paths do not end in white space. -/
theorem discovery_iff (fs : FileSystem) (runner : CommandRunner) (runtimeDir path : PathBuf) :
    (∀ repository commands, discover fs runner runtimeDir path = (.ok repository, commands) →
      Sound fs runtimeDir repository commands) ∧
    (∀ selected gitRoot, ∃ n ≤ selected.length,
      Loop (searchStep fs gitRoot) n selected (nearestManifest fs selected gitRoot)) ∧
    ∀ selected gitRoot workspaceManifest : CanonicalPath,
      Answers fs runner runtimeDir path selected gitRoot workspaceManifest →
      ((∃ repository commands, discover fs runner runtimeDir path = (.ok repository, commands) ∧
          repository.gitRoot = gitRoot.path) ↔ KeepsMeaning fs gitRoot workspaceManifest) ∧
      (workspaceManifest.IsUtf8 → EndsPlain gitRoot.path → EndsPlain workspaceManifest.path →
        KeepsMeaning fs gitRoot workspaceManifest) := by
  refine ⟨fun repository commands h => discover_sound h, nearestManifest_loop,
    fun selected gitRoot workspaceManifest h => ⟨⟨?_, ?_⟩, fun hutf8 hroot hmanifest => ?_⟩⟩
  · rintro ⟨repository, commands, hok, hroot⟩
    obtain ⟨selected', gitRoot', workspaceManifest', manifest, gitStdout, cargoStdout, hd⟩ :=
      discover_ok.1 hok
    have hselected : selected' = selected :=
      Option.some.inj ((validateSelected_ok.1 hd.selection).2.2.symm.trans h.selection)
    have hsame : gitRoot' = gitRoot := CanonicalPath.ext_path (hd.root.symm.trans hroot)
    subst hselected hsame
    have hgit := hd.rootRead
    rw [Option.some.inj (hd.gitAnswer.symm.trans h.git),
      canonicalCommandPath_line (canonical_head gitRoot')] at hgit
    have hspec := nearestManifest_spec fs selected'.canonical gitRoot'.canonical h.contains
    rw [hd.search] at hspec
    obtain ⟨directory, hnearest, rfl⟩ := hspec
    have hcargo := hd.manifestRead
    rw [Option.some.inj (hd.cargoAnswer.symm.trans (h.cargo directory hnearest)),
      canonicalCommandPath_line (canonical_head workspaceManifest)] at hcargo
    have hcanonical := isCanonical_parent workspaceManifest'.canonical hd.workspaceRoot
    exact ⟨hgit.2, hcargo.1, workspaceManifest', hcargo.2, repository.cargoWorkspaceRoot,
      hd.workspaceRoot, (canStrip_iff ⟨_, hcanonical⟩ gitRoot').1 hd.inside⟩
  · rintro ⟨hroot, hutf8, manifest, hmanifest, root, hparent, hwithin⟩
    obtain ⟨name, hname⟩ := displayName_isSome h.notRoot
    have hspec := nearestManifest_spec fs selected.canonical gitRoot.canonical h.contains
    obtain ⟨found, hfound, habove, hhas⟩ := h.manifest
    cases hsearch : nearestManifest fs selected.path gitRoot.path with
    | error error =>
      rw [hsearch] at hspec
      cases hhas.symm.trans (hspec found hfound habove)
    | ok nearest =>
      rw [hsearch] at hspec
      obtain ⟨directory, hnearest, rfl⟩ := hspec
      have hcanonical := isCanonical_parent manifest.canonical hparent
      refine ⟨⟨selected.path, name, gitRoot.path, root⟩, [gitCommand runtimeDir selected.path,
        cargoCommand runtimeDir (push directory cargoToml)], discover_ok.2 ⟨selected, gitRoot,
        manifest, push directory cargoToml, gitRoot.path ++ [newline],
        workspaceManifest.path ++ [newline], ?_⟩, rfl⟩
      exact {
        selection := validateSelected_ok.2 ⟨h.present, h.directory, h.selection⟩
        gitAnswer := h.git
        rootRead := (canonicalCommandPath_line (canonical_head gitRoot)).2 ⟨h.utf8, hroot⟩
        contains := (canStrip_iff selected gitRoot).2 h.contains
        search := hsearch
        cargoAnswer := h.cargo directory hnearest
        manifestRead :=
          (canonicalCommandPath_line (canonical_head workspaceManifest)).2 ⟨hutf8, hmanifest⟩
        workspaceRoot := hparent
        inside := (canStrip_iff ⟨root, hcanonical⟩ gitRoot).2 hwithin
        name := hname
        selectedPath := rfl
        root := rfl
        ran := rfl }
  · refine ⟨?_, hutf8, workspaceManifest, ?_, h.parent_within⟩
    · rw [trimmed_eq h.utf8 hroot]
      exact h.rootCanonical
    · rw [trimmed_eq hutf8 hmanifest]
      exact h.manifestCanonical

/-! ## Two repositories -/

section
variable (root manifest : CanonicalPath)

/-- A directory with one file. -/
def sampleFs : FileSystem where
  symlinkMetadata path :=
    if path = root.path ∨ path = manifest.path then .ok () else .error .notFound
  metadata path :=
    if path = root.path then .ok .directory
    else if path = manifest.path then .ok .file
    else .error .notFound
  canonicalize path :=
    if path = root.path then some root
    else if path = manifest.path then some manifest
    else none

def sampleRunner : CommandRunner := fun command =>
  if command.program = "git" then some (root.path ++ [newline])
  else some (manifest.path ++ [newline])

variable {root manifest}

theorem sample_answers (hparent : parent manifest.path = some root.path)
    (hpush : push root.path cargoToml = manifest.path) (hroot : root ≠ .root)
    (hutf8 : root.IsUtf8) : Answers (sampleFs root manifest) (sampleRunner root manifest)
      [slash] root.path root root manifest := by
  have hne : manifest.path ≠ root.path := by
    have hlt := parent_length_lt hparent
    intro heq
    rw [heq] at hlt
    exact Nat.lt_irrefl _ hlt
  have hhas : hasManifest (sampleFs root manifest) root.path = true := by
    simp [hasManifest, sampleFs, hpush, hne]
  refine ⟨if_pos (.inl rfl), if_pos rfl, if_pos rfl, .refl, hroot, hutf8, if_pos rfl, if_pos rfl,
    if_pos rfl, ⟨root.path, .refl, .refl, hhas⟩, ?_, ?_, .up hparent .refl, fun _ _ => rfl⟩
  · exact (if_neg hne).trans (if_pos rfl)
  · exact (if_neg hne).trans (if_pos rfl)

end

def plainRoot : CanonicalPath := ⟨osString "/r", by decide⟩

def plainManifest : CanonicalPath := ⟨osString "/r/Cargo.toml", by decide⟩

theorem discovery_iff_sample : ∃ repository commands,
    discover (sampleFs plainRoot plainManifest) (sampleRunner plainRoot plainManifest) [slash]
      plainRoot.path = (.ok repository, commands) ∧ repository.gitRoot = plainRoot.path := by
  have hanswers : Answers (sampleFs plainRoot plainManifest) (sampleRunner plainRoot plainManifest)
      [slash] plainRoot.path plainRoot plainRoot plainManifest :=
    sample_answers (by decide) (by decide) (by decide) (by decide)
  obtain ⟨hiff, hplain⟩ := (discovery_iff _ _ _ _).2.2 _ _ _ hanswers
  exact hiff.2 (hplain (by decide) (by decide) (by decide))

/-- A root whose name ends in a space. -/
def spacedRoot : CanonicalPath := ⟨osString "/r ", by decide⟩

def spacedManifest : CanonicalPath := ⟨osString "/r /Cargo.toml", by decide⟩

/-- The repository is refused although both commands answer well. -/
theorem spacedRoot_refused :
    Answers (sampleFs spacedRoot spacedManifest) (sampleRunner spacedRoot spacedManifest)
      [slash] spacedRoot.path spacedRoot spacedRoot spacedManifest ∧
    discover (sampleFs spacedRoot spacedManifest) (sampleRunner spacedRoot spacedManifest) [slash]
      spacedRoot.path = (.error .commandFailed, [gitCommand [slash] spacedRoot.path]) :=
  ⟨sample_answers (by decide) (by decide) (by decide) (by decide), by decide⟩

end CodingAgent.L4.App.Discovery
