import CodingAgent.Core.Utf16
import CodingAgent.L1Domain.Task

/-!
# The prompt of a new task (`web/src/components/TaskComposer.tsx`)

The composer trims its prompt as ECMAScript does and counts code points; the
server trims what it is sent by the Unicode `White_Space` property and counts
again (`NewTask::try_new`). The two sets differ in U+FEFF, which only the
browser trims, and in U+0085, which only the server does. A prompt is a string
of UTF-16 code units, which `decode` turns into the text of the request.

* `trim_eq_self_iff`: the server keeps what the composer sends unless U+0085
  stands at an end of it.
* `prompt_agrees_iff`: when the two sides agree about a prompt.
-/
namespace CodingAgent.L5.Web
open CodingAgent.L1.Domain Utf16

/-- ECMAScript `WhiteSpace` and `LineTerminator`. -/
def isTrimmed (v : Nat) : Bool :=
  (9 ≤ v && v ≤ 13) || v == 0x20 || v == 0xA0 || v == 0xFEFF || v == 0x1680 ||
    (0x2000 ≤ v && v ≤ 0x200A) || v == 0x2028 || v == 0x2029 || v == 0x202F || v == 0x205F ||
    v == 0x3000

/-- `String.prototype.trim` -/
def trimString (value : List UInt16) : List UInt16 :=
  trimWhile (fun u => isTrimmed u.toNat) value

/-- mirrors web/src/components/TaskComposer.tsx:20 -/
def promptLimit : Nat := 50000

/-- mirrors web/src/components/TaskComposer.tsx:22-24 -/
def scalarCount (value : List UInt16) : Nat := (codePoints value).length

/-- The state of the composer a submission reads. -/
structure Composer where
  repositoryId : Option RepositoryId
  prompt : List UInt16
  submitting : Bool

namespace Composer

/-- mirrors web/src/components/TaskComposer.tsx:70 -/
def trimmedPrompt (composer : Composer) : List UInt16 := trimString composer.prompt

def normalizedCount (composer : Composer) : Nat := scalarCount composer.trimmedPrompt

def tooLong (composer : Composer) : Bool := promptLimit < composer.normalizedCount

/-- mirrors web/src/components/TaskComposer.tsx:70-73 -/
def valid (composer : Composer) : Bool :=
  composer.repositoryId.isSome && 0 < composer.normalizedCount && !composer.tooLong

/-- The repository and the prompt of the command a submission creates.
mirrors web/src/components/TaskComposer.tsx:108-116 -/
def submit (composer : Composer) : Option (RepositoryId × List UInt16) :=
  match composer.repositoryId with
  | none => none
  | some repositoryId =>
    if !composer.valid || composer.submitting then none
    else some (repositoryId, composer.trimmedPrompt)

/-- A well-formed text typed for a repository. -/
def typed (repositoryId : RepositoryId) (text : String) : Composer :=
  { repositoryId := some repositoryId, prompt := encode text.toList, submitting := false }

end Composer

/-- What is asked of the composer and the server together: the prompt is valid
exactly if the server accepts it, and it is stored as it was sent. -/
structure PromptAgrees (clientRequestId : ClientRequestId) (repositoryId : RepositoryId)
    (text sent : String) : Prop where
  decodes : decode (Composer.typed repositoryId text).trimmedPrompt = some sent.toList
  valid_iff : (Composer.typed repositoryId text).valid = true ↔
    ∃ new, NewTask.tryNew clientRequestId repositoryId sent = .ok new
  submits : (Composer.typed repositoryId text).valid = true →
    (Composer.typed repositoryId text).submit =
      some (repositoryId, (Composer.typed repositoryId text).trimmedPrompt)
  stored : (Composer.typed repositoryId text).valid = true → ∀ new,
    NewTask.tryNew clientRequestId repositoryId sent = .ok new → new.prompt = sent

/-- The text a composer sends for a typed text. -/
def sentText (text : String) : String :=
  String.ofList (trimWhile (fun c => isTrimmed c.toNat) text.toList)

/-- U+0085, next line. -/
def nextLine : Char := Char.ofNat 0x85

/-- U+0085 stands at neither end. -/
def EndsPlain (text : String) : Prop :=
  text.toList.head? ≠ some nextLine ∧ text.toList.getLast? ≠ some nextLine

/-- The units of a character are trimmed exactly when it is. -/
theorem isTrimmed_unit (c : Char) : ∀ u ∈ encodeChar c, isTrimmed u.toNat = isTrimmed c.toNat := by
  intro u hu
  rcases encodeChar_cases c with ⟨v, hv, hval, -⟩ | ⟨v, w, hvw, hlead, htrail, hval, hge⟩
  · rw [hv, List.mem_singleton] at hu
    rw [hu, hval]
  · have hchar : isTrimmed c.toNat = false := by
      simp [isTrimmed]
      omega
    have hsurrogate : 0xD800 ≤ u.toNat ∧ u.toNat ≤ 0xDFFF := by
      simp only [isLead, isTrail, Bool.and_eq_true, decide_eq_true_eq] at hlead htrail
      rw [hvw, List.mem_cons, List.mem_singleton] at hu
      rcases hu with rfl | rfl <;> omega
    have hunit : isTrimmed u.toNat = false := by
      simp [isTrimmed]
      omega
    rw [hchar, hunit]

theorem trimmedPrompt_typed (repositoryId : RepositoryId) (text : String) :
    (Composer.typed repositoryId text).trimmedPrompt = encode (sentText text).toList := by
  rw [sentText, String.toList_ofList]
  exact trimWhile_encode isTrimmed_unit text.toList

theorem valid_typed_iff (repositoryId : RepositoryId) (text : String) :
    (Composer.typed repositoryId text).valid = true ↔
      0 < (sentText text).toList.length ∧ (sentText text).toList.length ≤ promptLimit := by
  have hcount : (Composer.typed repositoryId text).normalizedCount =
      (sentText text).toList.length := by
    rw [Composer.normalizedCount, trimmedPrompt_typed, scalarCount, codePoints_encode,
      List.length_map]
  have hsome : (Composer.typed repositoryId text).repositoryId.isSome = true := rfl
  simp only [Composer.valid, Composer.tooLong, hcount, hsome, Bool.true_and, Bool.and_eq_true,
    decide_eq_true_eq, Bool.not_eq_true', decide_eq_false_iff_not, Nat.not_lt]

/-- The two notions of white space differ in U+0085 only, for a character the
composer keeps. -/
theorem isWhiteSpace_of_kept {c : Char} (h : isTrimmed c.toNat = false) :
    isWhiteSpace c = false ↔ c ≠ nextLine := by
  have hnext : c = nextLine ↔ c.val.toNat = 0x85 := by
    constructor
    · rintro rfl
      rfl
    · intro hval
      exact Char.toNat_inj.mp hval
  rw [ne_eq, hnext]
  have hval : c.toNat = c.val.toNat := rfl
  rw [hval] at h
  simp [isTrimmed] at h
  simp [isWhiteSpace]
  omega

/-- What the composer sends starts and ends with characters it keeps. -/
theorem sentText_kept (text : String) : ∀ c, c ∈ (sentText text).toList.head? ∨
    c ∈ (sentText text).toList.getLast? → isTrimmed c.toNat = false := by
  rw [sentText, String.toList_ofList]
  obtain ⟨hhead, hlast⟩ := trimWhile_kept (fun c : Char => isTrimmed c.toNat) text.toList
  intro c hc
  rcases hc with hc | hc
  · exact hhead c hc
  · exact hlast c hc

/-- The server keeps what the composer sends unless U+0085 stands at an end. -/
theorem trim_eq_self_iff (text : String) :
    trim (sentText text) = sentText text ↔ EndsPlain (sentText text) := by
  have hkept := sentText_kept text
  generalize sentText text = sent at hkept ⊢
  have hlist : trim sent = sent ↔ trimWhile isWhiteSpace sent.toList = sent.toList := by
    rw [← String.toList_inj, trim, String.toList_ofList]
    exact Iff.rfl
  have hend : ∀ o : Option Char, (∀ c ∈ o, isTrimmed c.toNat = false) →
      (Kept isWhiteSpace o ↔ o ≠ some nextLine) := by
    intro o ho
    cases o with
    | none => exact iff_of_true (fun c hc => by cases hc) (fun hc => by cases hc)
    | some c =>
      have hc := isWhiteSpace_of_kept (ho c rfl)
      simp only [Kept, Option.mem_def, Option.some.injEq, forall_eq', ne_eq]
      exact hc
  rw [hlist, trimWhile_eq_self_iff, EndsPlain, hend _ (fun c hc => hkept c (Or.inl hc)),
    hend _ (fun c hc => hkept c (Or.inr hc))]

theorem trim_length_le (text : String) : (trim text).toList.length ≤ text.toList.length := by
  rw [trim, String.toList_ofList]
  exact trimWhile_length_le isWhiteSpace text.toList

theorem tryNew_ok_iff (clientRequestId : ClientRequestId) (repositoryId : RepositoryId)
    (prompt : String) : (∃ new, NewTask.tryNew clientRequestId repositoryId prompt = .ok new) ↔
      0 < (trim prompt).toList.length ∧ (trim prompt).toList.length ≤ promptLimit := by
  simp only [NewTask.tryNew, promptLimit]
  split
  · next h => exact iff_of_false (by rintro ⟨new, hnew⟩; cases hnew) (by omega)
  · next h => exact iff_of_true ⟨_, rfl⟩ (by omega)

/-- **When the composer and the server agree about a prompt.** A well-formed
text is valid exactly if the server accepts what the composer sends, and is
then stored as it was sent, if and only if what is sent has no U+0085 at an
end, or both sides refuse it: it is too long, and without the white space the
server trims it is still too long or empty. -/
theorem prompt_agrees_iff (clientRequestId : ClientRequestId) (repositoryId : RepositoryId)
    (text : String) :
    PromptAgrees clientRequestId repositoryId text (sentText text) ↔
      EndsPlain (sentText text) ∨ promptLimit < (sentText text).toList.length ∧
        ((trim (sentText text)).toList.length = 0 ∨
          promptLimit < (trim (sentText text)).toList.length) := by
  have hvalid := valid_typed_iff repositoryId text
  have haccepts := tryNew_ok_iff clientRequestId repositoryId (sentText text)
  constructor
  · intro h
    by_cases hplain : EndsPlain (sentText text)
    · exact Or.inl hplain
    · have hne : trim (sentText text) ≠ sentText text :=
        fun heq => hplain ((trim_eq_self_iff text).mp heq)
      have hinvalid : ¬(Composer.typed repositoryId text).valid = true := by
        intro hv
        obtain ⟨new, hnew⟩ := h.valid_iff.mp hv
        have hprompt := h.stored hv new hnew
        rw [NewTask.tryNew_ok hnew] at hprompt
        exact hne hprompt
      have hrefused : ¬∃ new, NewTask.tryNew clientRequestId repositoryId (sentText text) =
          .ok new := fun hok => hinvalid (h.valid_iff.mpr hok)
      rw [haccepts] at hrefused
      rw [hvalid] at hinvalid
      have hle := trim_length_le (sentText text)
      have hpos : 0 < (sentText text).toList.length := by
        rw [List.length_pos_iff]
        intro hnil
        apply hplain
        simp [EndsPlain, hnil]
      omega
  · intro h
    refine ⟨?_, ?_, ?_, ?_⟩
    · rw [trimmedPrompt_typed, decode_encode]
    · rw [hvalid, haccepts]
      rcases h with hplain | ⟨hlong, htrim⟩
      · rw [(trim_eq_self_iff text).mpr hplain]
      · omega
    · intro hv
      have hnot : (!(Composer.typed repositoryId text).valid ||
          (Composer.typed repositoryId text).submitting) = false := by
        rw [hv]
        rfl
      simp only [Composer.submit, hnot, Bool.false_eq_true, if_false]
      rfl
    · intro hv new hnew
      rw [NewTask.tryNew_ok hnew]
      rcases h with hplain | ⟨hlong, -⟩
      · exact (trim_eq_self_iff text).mpr hplain
      · rw [hvalid] at hv
        omega

/-- A text that is U+0085 alone: valid in the composer, refused by the server. -/
theorem prompt_next_line :
    (Composer.typed ⟨2⟩ (String.ofList [nextLine])).valid = true ∧
    NewTask.tryNew ⟨1⟩ ⟨2⟩ (sentText (String.ofList [nextLine])) = .error .invalidPrompt ∧
    ¬PromptAgrees ⟨1⟩ ⟨2⟩ (String.ofList [nextLine]) (sentText (String.ofList [nextLine])) := by
  have hvalid : (Composer.typed ⟨2⟩ (String.ofList [nextLine])).valid = true := by
    rw [valid_typed_iff]
    decide +kernel
  have hrefused : NewTask.tryNew ⟨1⟩ ⟨2⟩ (sentText (String.ofList [nextLine])) =
      .error .invalidPrompt := by decide +kernel
  refine ⟨hvalid, hrefused, fun hagrees => ?_⟩
  obtain ⟨new, hnew⟩ := hagrees.valid_iff.mp hvalid
  rw [hrefused] at hnew
  cases hnew

end CodingAgent.L5.Web
