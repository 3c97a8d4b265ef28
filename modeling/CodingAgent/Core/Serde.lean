import CodingAgent.Core.Json
import Mathlib.Data.List.Nodup
import Mathlib.Data.String.Basic

/-!
# Typed documents

How a derived serializer and deserializer see a JSON document: a tree of
values (`value`) has the members of an object sorted by name and, of a
repeated name, the last; a structure is read from its members by name, or
from an array by position (`fields`); a text nested deeper than 127 levels is
refused (`fromStr`). A reader of one type passes over the members that type
has no use for (`fromStrAs`).

A `Codec` is a pair of the two directions with its laws, so that a type whose
reader does not undo its writer has none; a `Layout` is that of a structure. `form` covers the
two documents a reader meets: the members as they were written, or sorted.

* `fromStr_value`: the text of a tree is read as that tree.
* `fields_fromStrAs`: what is read as a value is read as a structure.
-/
namespace CodingAgent.Serde
open Json

/-! ## Sorted members -/

/-- A member put in its place; one of the same name is replaced. -/
def insertMember (k : String) (v : Json) : List (String × Json) → List (String × Json)
  | [] => [(k, v)]
  | (l, w) :: ms =>
    if k < l then (k, v) :: (l, w) :: ms
    else if k = l then (k, v) :: ms
    else (l, w) :: insertMember k v ms

def sortMembers (ms : List (String × Json)) : List (String × Json) :=
  ms.foldl (fun sorted m => insertMember m.1 m.2 sorted) []

mutual
/-- The tree a document is kept as. -/
def value : Json → Json
  | .null => .null
  | .bool b => .bool b
  | .int n => .int n
  | .decimal literal => .decimal literal
  | .string s => .string s
  | .illFormed units => .illFormed units
  | .array vs => .array (valueItems vs)
  | .object ms => .object (sortMembers (valueMembers ms))

def valueItems : List Json → List Json
  | [] => []
  | v :: vs => value v :: valueItems vs

def valueMembers : List (String × Json) → List (String × Json)
  | [] => []
  | (k, v) :: ms => (k, value v) :: valueMembers ms
end

theorem valueItems_eq (vs : List Json) : valueItems vs = vs.map value := by
  induction vs with
  | nil => rfl
  | cons v vs ih => rw [valueItems, ih, List.map_cons]

theorem valueMembers_eq (ms : List (String × Json)) :
    valueMembers ms = ms.map fun m => (m.1, value m.2) := by
  induction ms with
  | nil => rfl
  | cons m ms ih => rw [valueMembers, ih, List.map_cons]

theorem mem_insertMember {k : String} {v : Json} {ms : List (String × Json)} {m : String × Json}
    (h : m ∈ insertMember k v ms) : m = (k, v) ∨ m ∈ ms := by
  induction ms with
  | nil => exact .inl (List.mem_singleton.1 h)
  | cons n ms ih =>
    unfold insertMember at h
    split_ifs at h
    · exact List.mem_cons.1 h
    · exact (List.mem_cons.1 h).imp_right (List.mem_cons_of_mem _)
    · rcases List.mem_cons.1 h with rfl | h
      · exact .inr List.mem_cons_self
      · exact (ih h).imp_right (List.mem_cons_of_mem _)

theorem mem_foldl_insertMember {ms sorted : List (String × Json)} {m : String × Json}
    (h : m ∈ ms.foldl (fun sorted m => insertMember m.1 m.2 sorted) sorted) :
    m ∈ ms ∨ m ∈ sorted := by
  induction ms generalizing sorted with
  | nil => exact .inr h
  | cons n ms ih =>
    rcases ih h with hm | hm
    · exact .inl (List.mem_cons_of_mem n hm)
    · refine (mem_insertMember hm).imp_left fun he => ?_
      rw [he]
      exact List.mem_cons_self

theorem mem_sortMembers {ms : List (String × Json)} {m : String × Json}
    (h : m ∈ sortMembers ms) : m ∈ ms := by
  rcases mem_foldl_insertMember h with h | h
  · exact h
  · cases h

/-- Names in increasing order. -/
def Sorted (ms : List (String × Json)) : Prop := ms.Pairwise fun m n => m.1 < n.1

theorem sorted_insertMember {k : String} {v : Json} {ms : List (String × Json)} (h : Sorted ms) :
    Sorted (insertMember k v ms) := by
  induction ms with
  | nil => exact List.pairwise_singleton _ _
  | cons n ms ih =>
    obtain ⟨hn, hms⟩ := List.pairwise_cons.1 h
    unfold insertMember
    split_ifs with hlt heq
    · refine List.pairwise_cons.2 ⟨fun m hm => ?_, h⟩
      rcases List.mem_cons.1 hm with rfl | hm
      · exact hlt
      · exact lt_trans hlt (hn m hm)
    · subst heq
      exact List.pairwise_cons.2 ⟨hn, hms⟩
    · refine List.pairwise_cons.2 ⟨fun m hm => ?_, ih hms⟩
      rcases mem_insertMember hm with rfl | hm
      · exact lt_of_le_of_ne (not_lt.1 hlt) (Ne.symm heq)
      · exact hn m hm

theorem sorted_sortMembers (ms : List (String × Json)) : Sorted (sortMembers ms) := by
  suffices ∀ sorted, Sorted sorted →
      Sorted (ms.foldl (fun sorted m => insertMember m.1 m.2 sorted) sorted) from
    this [] List.Pairwise.nil
  induction ms with
  | nil => exact fun sorted h => h
  | cons m ms ih => exact fun sorted h => ih _ (sorted_insertMember h)

theorem insertMember_last {k : String} {v : Json} {ms : List (String × Json)}
    (h : ∀ m ∈ ms, m.1 < k) : insertMember k v ms = ms ++ [(k, v)] := by
  induction ms with
  | nil => rfl
  | cons m ms ih =>
    have hm := h m List.mem_cons_self
    rw [insertMember, if_neg (lt_asymm hm), if_neg (ne_of_gt hm),
      ih fun n hn => h n (List.mem_cons_of_mem m hn), List.cons_append]

/-- Sorted members stay as they are. -/
theorem sortMembers_of_sorted {ms : List (String × Json)} (h : Sorted ms) :
    sortMembers ms = ms := by
  suffices ∀ sorted, Sorted (sorted ++ ms) →
      ms.foldl (fun sorted m => insertMember m.1 m.2 sorted) sorted = sorted ++ ms from
    this [] h
  clear h
  induction ms with
  | nil => exact fun sorted _ => (List.append_nil sorted).symm
  | cons m ms ih =>
    intro sorted h
    have hlt : ∀ n ∈ sorted, n.1 < m.1 := fun n hn =>
      (List.pairwise_append.1 h).2.2 n hn m List.mem_cons_self
    rw [List.append_cons] at h ⊢
    rw [List.foldl_cons, insertMember_last hlt]
    exact ih _ h

/-- The member of a name, the first one where there are several. -/
def member (name : String) : List (String × Json) → Option Json
  | [] => none
  | (k, v) :: ms => if k = name then some v else member name ms

theorem member_insertMember (name k : String) (v : Json) (ms : List (String × Json)) :
    member name (insertMember k v ms) = if k = name then some v else member name ms := by
  induction ms with
  | nil => rfl
  | cons m ms ih =>
    obtain ⟨l, w⟩ := m
    unfold insertMember
    by_cases hname : k = name
    · subst hname
      rw [if_pos rfl] at ih ⊢
      split_ifs with hlt heq
      · rw [member, if_pos rfl]
      · rw [member, if_pos rfl]
      · rw [member, if_neg (Ne.symm heq), ih]
    · rw [if_neg hname] at ih ⊢
      split_ifs with hlt heq
      · rw [member, if_neg hname]
      · subst heq
        rw [member, member, if_neg hname, if_neg hname]
      · rw [member, member, ih]

theorem member_eq_none {name : String} {ms : List (String × Json)}
    (h : name ∉ ms.map (·.1)) : member name ms = none := by
  induction ms with
  | nil => rfl
  | cons m ms ih =>
    simp only [List.map_cons, List.mem_cons, not_or] at h
    rw [member, if_neg (Ne.symm h.1), ih h.2]

/-- Of distinct names, sorting keeps every member. -/
theorem member_sortMembers {ms : List (String × Json)} (h : (ms.map (·.1)).Nodup)
    (name : String) : member name (sortMembers ms) = member name ms := by
  suffices ∀ sorted, member name
      (ms.foldl (fun sorted m => insertMember m.1 m.2 sorted) sorted) =
        (member name ms).or (member name sorted) by
    rw [sortMembers, this, member, Option.or_none]
  induction ms with
  | nil => exact fun sorted => rfl
  | cons m ms ih =>
    intro sorted
    obtain ⟨k, v⟩ := m
    obtain ⟨hk, hms⟩ := List.nodup_cons.1 (List.map_cons .. ▸ h)
    rw [List.foldl_cons, ih hms, member, member_insertMember]
    by_cases hname : k = name
    · subst hname
      rw [if_pos rfl, if_pos rfl, member_eq_none hk]
      rfl
    · rw [if_neg hname, if_neg hname]

theorem member_map (name : String) (f : Json → Json) (ms : List (String × Json)) :
    member name (ms.map fun m => (m.1, f m.2)) = (member name ms).map f := by
  induction ms with
  | nil => rfl
  | cons m ms ih =>
    obtain ⟨k, v⟩ := m
    rw [List.map_cons, member, member]
    split_ifs
    · rfl
    · exact ih

/-- Every member is found under its own name. -/
theorem member_self {ms : List (String × Json)} (h : (ms.map (·.1)).Nodup) :
    ∀ m ∈ ms, member m.1 ms = some m.2 := by
  induction ms with
  | nil => exact fun m hm => by cases hm
  | cons n ms ih =>
    obtain ⟨k, v⟩ := n
    obtain ⟨hk, hms⟩ := List.nodup_cons.1 (List.map_cons .. ▸ h)
    intro m hm
    rcases List.mem_cons.1 hm with rfl | hmem
    · rw [member, if_pos rfl]
    · have hne : k ≠ m.1 := fun he => hk (List.mem_map.2 ⟨m, hmem, he.symm⟩)
      rw [member, if_neg hne, ih hms m hmem]

/-! ## Structures -/

/-- The two documents a reader meets: as written, or as a tree. -/
def form (tree : Bool) (v : Json) : Json := if tree then value v else v

@[simp] theorem form_null (tree : Bool) : form tree .null = .null := by cases tree <;> rfl

@[simp] theorem form_bool (tree b : Bool) : form tree (.bool b) = .bool b := by cases tree <;> rfl

@[simp] theorem form_int (tree : Bool) (n : Int) : form tree (.int n) = .int n := by
  cases tree <;> rfl

@[simp] theorem form_string (tree : Bool) (s : String) : form tree (.string s) = .string s := by
  cases tree <;> rfl

@[simp] theorem form_array (tree : Bool) (vs : List Json) :
    form tree (.array vs) = .array (vs.map (form tree)) := by
  cases tree with
  | false =>
    have hid : form false = id := rfl
    rw [hid, List.map_id]
    rfl
  | true =>
    show Json.array (valueItems vs) = _
    rw [valueItems_eq]
    rfl

/-- The fields of a structure: the members of an object, no name twice, or an
array of that many items. -/
def fields (names : List String) : Json → Option (List (Option Json))
  | .object ms =>
    if names.all fun name => (ms.filter fun m => m.1 = name).length ≤ 1 then
      some (names.map fun name => member name ms)
    else none
  | .array vs => if vs.length = names.length then some (vs.map some) else none
  | _ => none

theorem filter_name_le_one {ms : List (String × Json)} (h : (ms.map (·.1)).Nodup) (name : String) :
    (ms.filter fun m => m.1 = name).length ≤ 1 := by
  induction ms with
  | nil => exact Nat.zero_le _
  | cons m ms ih =>
    obtain ⟨hm, hms⟩ := List.nodup_cons.1 (List.map_cons .. ▸ h)
    rw [List.filter_cons]
    split
    · next heq =>
      have hnone : ms.filter (fun n => n.1 = name) = [] := by
        rw [List.filter_eq_nil_iff]
        intro n hn hname
        rw [decide_eq_true_eq] at heq hname
        exact hm (heq ▸ hname ▸ List.mem_map_of_mem hn)
      rw [hnone]
      exact Nat.le_refl 1
    · exact ih hms

theorem nodup_sorted {ms : List (String × Json)} (h : Sorted ms) : (ms.map (·.1)).Nodup :=
  List.pairwise_map.2 (h.imp fun hlt => ne_of_lt hlt)

theorem fields_object {names : List String} {ms : List (String × Json)}
    (h : (ms.map (·.1)).Nodup) :
    fields names (.object ms) = some (names.map fun name => member name ms) := by
  rw [fields, if_pos]
  rw [List.all_eq_true]
  exact fun name _ => decide_eq_true (filter_name_le_one h name)

/-- A structure written with distinct names gives back the values of its
members. -/
theorem fields_form {ms : List (String × Json)} (h : (ms.map (·.1)).Nodup) (tree : Bool) :
    fields (ms.map (·.1)) (form tree (.object ms)) = some (ms.map fun m => some (form tree m.2)) := by
  cases tree with
  | false =>
    show fields _ (.object ms) = some (ms.map fun m => some m.2)
    rw [fields_object h, List.map_map]
    exact congrArg some (List.map_congr_left fun m hm => member_self h m hm)
  | true =>
    show fields _ (.object (sortMembers (valueMembers ms))) = _
    rw [fields_object (nodup_sorted (sorted_sortMembers _)), valueMembers_eq, List.map_map]
    refine congrArg some (List.map_congr_left fun m hm => ?_)
    have hnames : ((ms.map fun m => (m.1, value m.2)).map (·.1)).Nodup := by
      rw [List.map_map]
      exact h
    show member m.1 (sortMembers (ms.map fun m => (m.1, value m.2))) = some (value m.2)
    rw [member_sortMembers hnames, member_map, member_self h m hm]
    rfl

/-! ## Texts -/

mutual
/-- A tree is its own tree. -/
theorem value_value : (v : Json) → value (value v) = value v
  | .null | .bool _ | .int _ | .decimal _ | .string _ | .illFormed _ => rfl
  | .array vs => congrArg Json.array (valueItems_value vs)
  | .object ms => by
    have hsame : valueMembers (sortMembers (valueMembers ms)) = sortMembers (valueMembers ms) := by
      rw [valueMembers_eq (sortMembers _)]
      refine (List.map_congr_left (g := id) fun m hm => ?_).trans (List.map_id _)
      have hm := valueMembers_value ms m (mem_sortMembers hm)
      exact Prod.ext rfl hm
    show Json.object (sortMembers (valueMembers (sortMembers (valueMembers ms)))) = _
    rw [hsame, sortMembers_of_sorted (sorted_sortMembers _)]
    rfl

theorem valueItems_value : (vs : List Json) → valueItems (valueItems vs) = valueItems vs
  | [] => rfl
  | v :: vs => by rw [valueItems, valueItems, value_value v, valueItems_value vs]

theorem valueMembers_value : (ms : List (String × Json)) →
    ∀ m ∈ valueMembers ms, value m.2 = m.2
  | [], m, hm => by cases hm
  | (k, v) :: ms, m, hm => by
    rcases List.mem_cons.1 hm with rfl | hm
    · exact value_value v
    · exact valueMembers_value ms m hm
end

/-- Arrays and objects are nested at most `d` deep. -/
def shallow : Nat → Json → Bool
  | 0, .array _ => false
  | 0, .object _ => false
  | d + 1, .array vs => vs.all (shallow d)
  | d + 1, .object ms => ms.all fun m => shallow d m.2
  | _, _ => true

/-- A document a serializer writes: texts and integers only, nested at most `d` deep. -/
def Fits : Nat → Json → Prop
  | _, .decimal _ => False
  | _, .illFormed _ => False
  | 0, .array _ => False
  | 0, .object _ => False
  | d + 1, .array vs => ∀ v ∈ vs, Fits d v
  | d + 1, .object ms => ∀ m ∈ ms, Fits d m.2
  | _, _ => True

/-- `serde_json::from_str` of a value, on the nesting its recursion limit allows. -/
def fromStr (text : String) : Option Json :=
  (parse text.toList).bind fun v => if shallow 127 v then some v else none

/-- `serde_json::to_string`. -/
def toText (v : Json) : String := String.ofList (print v)

theorem plainItems_iff {vs : List Json} : PlainItems vs ↔ ∀ v ∈ vs, Plain v := by
  induction vs with
  | nil => simp [PlainItems]
  | cons v vs ih => simp [PlainItems, ih]

theorem plainMembers_iff {ms : List (String × Json)} :
    PlainMembers ms ↔ ∀ m ∈ ms, Plain m.2 := by
  induction ms with
  | nil => simp [PlainMembers]
  | cons m ms ih =>
    obtain ⟨k, v⟩ := m
    simp [PlainMembers, ih]

theorem Fits.plain {d : Nat} {v : Json} (h : Fits d v) : Plain v := by
  induction d generalizing v with
  | zero => cases v <;> trivial
  | succ d ih =>
    cases v with
    | decimal literal => exact h.elim
    | illFormed units => exact h.elim
    | array vs => exact plainItems_iff.2 fun v hv => ih (h v hv)
    | object ms => exact plainMembers_iff.2 fun m hm => ih (h m hm)
    | _ => trivial

theorem Fits.shallow {d n : Nat} {v : Json} (h : Fits d v) (hle : d ≤ n) : shallow n v = true := by
  induction d generalizing v n with
  | zero => cases n <;> cases v <;> first | rfl | exact h.elim
  | succ d ih =>
    obtain _ | n := n
    · omega
    · cases v with
      | array vs => exact List.all_eq_true.2 fun v hv => ih (h v hv) (Nat.le_of_succ_le_succ hle)
      | object ms => exact List.all_eq_true.2 fun m hm => ih (h m hm) (Nat.le_of_succ_le_succ hle)
      | _ => rfl

theorem Fits.mono {d n : Nat} {v : Json} (h : Fits d v) (hle : d ≤ n) : Fits n v := by
  induction d generalizing v n with
  | zero => cases n <;> cases v <;> trivial
  | succ d ih =>
    obtain _ | n := n
    · omega
    · cases v with
      | decimal literal => exact h.elim
      | illFormed units => exact h.elim
      | array vs => exact fun v hv => ih (h v hv) (Nat.le_of_succ_le_succ hle)
      | object ms => exact fun m hm => ih (h m hm) (Nat.le_of_succ_le_succ hle)
      | _ => trivial

theorem Fits.value {d : Nat} {v : Json} (h : Fits d v) : Fits d (value v) := by
  induction d generalizing v with
  | zero => cases v <;> trivial
  | succ d ih =>
    cases v with
    | decimal literal => exact h.elim
    | illFormed units => exact h.elim
    | array vs =>
      intro v hv
      rw [valueItems_eq] at hv
      obtain ⟨w, hw, rfl⟩ := List.mem_map.1 hv
      exact ih (h w hw)
    | object ms =>
      intro m hm
      have hm := mem_sortMembers hm
      rw [valueMembers_eq] at hm
      obtain ⟨n, hn, rfl⟩ := List.mem_map.1 hm
      exact ih (h n hn)
    | _ => trivial

/-- A written document is read back. -/
theorem fromStr_toText {d : Nat} {v : Json} (h : Fits d v) (hd : d ≤ 127) :
    fromStr (toText v) = some v := by
  rw [fromStr, toText, String.toList_ofList, parse_print h.plain]
  show (if shallow 127 v = true then some v else none) = some v
  rw [if_pos (h.shallow hd)]

/-- The text of a tree is read as that tree. -/
theorem fromStr_value {d : Nat} {v : Json} (h : Fits d v) (hd : d ≤ 127) :
    (fromStr (toText (value v))).map value = some (value v) := by
  rw [fromStr_toText h.value hd, Option.map_some, value_value]

/-! ## Members that are skipped -/

section
variable (names : List String)

/-- A member put before others, when the structure has its name. -/
def consNamed (name : String) (v : Json) (ms : List (String × Json)) : List (String × Json) :=
  if name ∈ names then (name, v) :: ms else ms

/-- The members of these names, up to the brace. The value of another one is skipped: only its
grammar is looked at, and not what its strings are. -/
def readNamed : Nat → List Char → Option (List (String × Json) × List Char)
  | 0, _ => none
  | fuel + 1, cs =>
    match skipBlank cs with
    | '"' :: rest =>
      (readString rest).bind fun (name, rest) =>
        match skipBlank rest with
        | ':' :: rest =>
          (readValue (name ∉ names) fuel rest).bind fun (v, rest) =>
            match skipBlank rest with
            | '}' :: rest => some (consNamed names name v [], rest)
            | ',' :: rest =>
              (readNamed fuel rest).map fun (ms, rest) => (consNamed names name v ms, rest)
            | _ => none
        | _ => none
    | _ => none

/-- `serde_json::from_str` of a structure that ignores the members it does not name. The recursion
limit does not count the values that are skipped. -/
def fromStrAs (text : String) : Option Json :=
  match skipBlank text.toList with
  | '{' :: rest =>
    if (skipBlank rest).head? = some '}' then fromStr text
    else
      (readNamed names text.toList.length rest).bind fun (ms, rest) =>
        if skipBlank rest = [] ∧ ms.all fun m => shallow 126 m.2 then some (.object ms) else none
  | _ => fromStr text

end

section
variable {names : List String}

theorem consNamed_filter (name : String) (v : Json) (ms : List (String × Json)) :
    consNamed names name v (ms.filter fun m => m.1 ∈ names) =
      ((name, v) :: ms).filter fun m => m.1 ∈ names := by
  rw [consNamed, List.filter_cons]
  simp only [decide_eq_true_eq]

/-- A value is read the same way under every name. -/
theorem readValue_named {fuel : Nat} {cs rest : List Char} {v : Json} (wide : Bool)
    (h : readValue false fuel cs = some (v, rest)) : readValue wide fuel cs = some (v, rest) := by
  cases wide with
  | false => exact h
  | true => exact (readWide fuel).value h

/-- Of members that are read, the structure sees those it names. -/
theorem readNamed_of_readMembers {fuel : Nat} {cs rest : List Char} {ms : List (String × Json)}
    (h : readMembers false fuel cs = some (ms, rest)) :
    readNamed names fuel cs = some (ms.filter fun m => m.1 ∈ names, rest) := by
  induction fuel generalizing cs ms with
  | zero => cases h
  | succ fuel ih =>
    obtain ⟨quoted, name, named, colon, v, valued, hquote, hname, hcolon, hv, hlast | hmore⟩ :=
      readMembers_succ h
    · obtain ⟨hend, rfl⟩ := hlast
      rw [readNamed, hquote]
      simp only [hname, Option.bind_some, hcolon, readValue_named _ hv, hend]
      exact congrArg (fun ms => some (ms, rest)) (consNamed_filter name v [])
    · obtain ⟨next, ns, hnext, hns, rfl⟩ := hmore
      rw [readNamed, hquote]
      simp only [hname, Option.bind_some, hcolon, readValue_named _ hv, hnext, ih hns,
        Option.map_some]
      exact congrArg (fun ms => some (ms, rest)) (consNamed_filter name v ns)

theorem member_filter {name : String} (h : name ∈ names) (ms : List (String × Json)) :
    member name (ms.filter fun m => m.1 ∈ names) = member name ms := by
  induction ms with
  | nil => rfl
  | cons m ms ih =>
    obtain ⟨k, v⟩ := m
    rw [← consNamed_filter, consNamed, member]
    by_cases hk : k = name
    · subst hk
      rw [if_pos h, if_pos rfl, member, if_pos rfl]
    · rw [if_neg hk]
      split_ifs
      · rw [member, if_neg hk, ih]
      · exact ih

/-- The fields of a structure are in the members it names. -/
theorem fields_filter (ms : List (String × Json)) :
    fields names (.object (ms.filter fun m => m.1 ∈ names)) = fields names (.object ms) := by
  have hcount : ∀ name ∈ names,
      (ms.filter fun m => m.1 ∈ names).filter (fun m => m.1 = name) =
        ms.filter fun m => m.1 = name := by
    intro name hname
    rw [List.filter_filter]
    refine List.filter_congr fun m _ => ?_
    by_cases hm : m.1 = name
    · simp [hm, hname]
    · simp [hm]
  have hmember : (names.map fun name => member name (ms.filter fun m => m.1 ∈ names)) =
      names.map fun name => member name ms :=
    List.map_congr_left fun name hname => member_filter hname ms
  rw [fields, fields, hmember]
  refine if_congr ?_ rfl rfl
  rw [List.all_eq_true, List.all_eq_true]
  refine forall₂_congr fun name hname => ?_
  rw [hcount name hname]

/-- A text that is a value has the fields of that value. -/
theorem fields_fromStrAs (names : List String) {text : String} {v : Json} (h : fromStr text = some v) :
    (fromStrAs names text).bind (fields names) = fields names v := by
  have hsame : (fromStr text).bind (fields names) = fields names v := by rw [h]; rfl
  obtain ⟨w, hparse, hshallow⟩ := Option.bind_eq_some_iff.1 h
  obtain ⟨hdeep, heq⟩ := Option.ite_none_right_eq_some.1 hshallow
  obtain rfl := Option.some.inj heq
  obtain ⟨⟨w', rest⟩, hread, hrest⟩ := Option.bind_eq_some_iff.1 hparse
  obtain ⟨hblank, heq⟩ := Option.ite_none_right_eq_some.1 hrest
  obtain rfl := Option.some.inj heq
  rw [fromStrAs]
  split
  · next tail hskip =>
    split
    · exact hsame
    · next hmembers =>
      rw [readValue, hskip] at hread
      simp only [if_neg hmembers] at hread
      obtain ⟨⟨ms, rest'⟩, hms, heq⟩ := Option.map_eq_some_iff.1 hread
      obtain ⟨rfl, rfl⟩ := Prod.mk.inj heq
      have hall : (ms.filter fun m => m.1 ∈ names).all (fun m => shallow 126 m.2) = true :=
        List.all_eq_true.2 fun m hm => List.all_eq_true.1 hdeep m (List.mem_filter.1 hm).1
      rw [readNamed_of_readMembers hms, Option.bind_some]
      simp only [if_pos (And.intro hblank hall), Option.bind_some]
      exact fields_filter ms
  · exact hsame

end

/-! ## Reading field by field -/

/-- The members a reader comes to before the text stops being those of an object. -/
def metMembers : Nat → List Char → List (String × Json)
  | 0, _ => []
  | fuel + 1, cs =>
    match skipBlank cs with
    | '"' :: rest =>
      match readString rest with
      | some (name, rest) =>
        match skipBlank rest with
        | ':' :: rest =>
          match readValue false fuel rest with
          | some (v, rest) =>
            (name, v) :: match skipBlank rest with
              | ',' :: rest => metMembers fuel rest
              | _ => []
          | none => []
        | _ => []
      | none => []
    | _ => []

/-- The items a reader comes to before the text stops being those of an array. -/
def metItems : Nat → List Char → List Json
  | 0, _ => []
  | fuel + 1, cs =>
    match readValue false fuel cs with
    | some (v, rest) =>
      v :: match skipBlank rest with
        | ',' :: rest => metItems fuel rest
        | _ => []
    | none => []

/-- Of an object it comes to every member. -/
theorem metMembers_of_readMembers {fuel : Nat} {cs rest : List Char} {ms : List (String × Json)}
    (h : readMembers false fuel cs = some (ms, rest)) : metMembers fuel cs = ms := by
  induction fuel generalizing cs ms with
  | zero => cases h
  | succ fuel ih =>
    obtain ⟨quoted, name, named, colon, v, valued, hquote, hname, hcolon, hv, hlast | hmore⟩ :=
      readMembers_succ h
    · obtain ⟨hend, rfl⟩ := hlast
      rw [metMembers, hquote]
      simp only [hname, hcolon, hv, hend]
      rfl
    · obtain ⟨next, ns, hnext, hns, rfl⟩ := hmore
      rw [metMembers, hquote]
      simp only [hname, hcolon, hv, hnext, ih hns]

/-! ## Types -/

/-- `Serialize` and `Deserialize` of a type. No value is written as `null`,
which stands for an absent one. -/
class Codec (α : Type) where
  serialize : α → Json
  deserialize : Json → Option α
  depth : Nat
  fits : ∀ a, Fits depth (serialize a)
  notNull : ∀ a, serialize a ≠ .null
  deserialize_form : ∀ tree a, deserialize (form tree (serialize a)) = some a

export Codec (serialize deserialize)

section Codec
variable {α : Type} [Codec α]

theorem fits_serialize {n : Nat} (h : Codec.depth α ≤ n) (a : α) : Fits n (serialize a) :=
  (Codec.fits a).mono h

@[simp] theorem deserialize_form (tree : Bool) (a : α) :
    deserialize (form tree (serialize a)) = some a := Codec.deserialize_form tree a

/-- The reader of a field that must be there. -/
def required (field : Option Json) : Option α := field.bind deserialize

/-- The reader of a field that may be missing or `null`. -/
def nullable : Option Json → Option (Option α)
  | none => some none
  | some .null => some none
  | some v => (deserialize v).map some

/-- `Option::serialize`. -/
def serializeOption : Option α → Json
  | none => .null
  | some a => serialize a

theorem fits_serializeOption {n : Nat} (h : Codec.depth α ≤ n) (a : Option α) :
    Fits n (serializeOption a) := by
  cases a with
  | none => cases n <;> trivial
  | some a => exact fits_serialize h a

@[simp] theorem required_form (tree : Bool) (a : α) :
    required (some (form tree (serialize a))) = some a := deserialize_form tree a

theorem form_ne_null {tree : Bool} {v : Json} (h : v ≠ .null) : form tree v ≠ .null := by
  cases tree with
  | false => exact h
  | true => cases v <;> first | exact absurd rfl h | exact fun he => by cases he

@[simp] theorem nullable_form (tree : Bool) (a : Option α) :
    nullable (some (form tree (serializeOption a))) = some a := by
  cases a with
  | none =>
    rw [serializeOption, form_null]
    rfl
  | some a =>
    have hv := deserialize_form tree a
    have hne : form tree (serialize a) ≠ .null := form_ne_null (Codec.notNull a)
    rw [serializeOption]
    revert hv hne
    generalize form tree (serialize a) = v
    intro hv hne
    cases v with
    | null => exact absurd rfl hne
    | _ => simp only [nullable, hv, Option.map_some]

instance : Codec String where
  serialize := .string
  deserialize
    | .string s => some s
    | _ => none
  depth := 0
  fits _ := trivial
  notNull _ h := by cases h
  deserialize_form tree s := by rw [form_string]

instance : Codec Bool where
  serialize := .bool
  deserialize
    | .bool b => some b
    | _ => none
  depth := 0
  fits _ := trivial
  notNull _ h := by cases h
  deserialize_form tree b := by rw [form_bool]

/-- An integer from `0` on and below a bound. -/
def readNat (bound : Nat) : Json → Option Nat
  | .int n => if 0 ≤ n ∧ n < bound then some n.toNat else none
  | _ => none

theorem readNat_form {bound n : Nat} (h : n < bound) (tree : Bool) :
    readNat bound (form tree (.int n)) = some n := by
  have hrange : (0 : Int) ≤ n ∧ (n : Int) < bound := by omega
  rw [form_int, readNat, if_pos hrange, Int.toNat_natCast]

instance : Codec UInt32 where
  serialize n := .int n.toNat
  deserialize v := (readNat (2 ^ 32) v).map UInt32.ofNat
  depth := 0
  fits _ := trivial
  notNull _ h := by cases h
  deserialize_form tree n := by
    rw [readNat_form n.toNat_lt, Option.map_some, UInt32.ofNat_toNat]

instance : Codec UInt64 where
  serialize n := .int n.toNat
  deserialize v := (readNat (2 ^ 64) v).map UInt64.ofNat
  depth := 0
  fits _ := trivial
  notNull _ h := by cases h
  deserialize_form tree n := by
    rw [readNat_form n.toNat_lt, Option.map_some, UInt64.ofNat_toNat]

theorem mapM_form (tree : Bool) (as : List α) :
    ((as.map serialize).map (form tree)).mapM (deserialize (α := α)) = some as := by
  induction as with
  | nil => rfl
  | cons a as ih =>
    rw [List.map_cons, List.map_cons, List.mapM_cons, deserialize_form, ih]
    rfl

instance : Codec (List α) where
  serialize as := .array (as.map serialize)
  deserialize
    | .array vs => vs.mapM deserialize
    | _ => none
  depth := Codec.depth α + 1
  fits as v hv := by
    obtain ⟨a, -, rfl⟩ := List.mem_map.1 hv
    exact Codec.fits a
  notNull _ h := by cases h
  deserialize_form tree as := by
    rw [form_array]
    exact mapM_form tree as

end Codec

/-- A type written as a text. -/
@[reducible] def Codec.ofText {α : Type} (print : α → String) (parse : String → Option α)
    (h : ∀ a, parse (print a) = some a) : Codec α where
  serialize a := .string (print a)
  deserialize
    | .string s => parse s
    | _ => none
  depth := 0
  fits _ := trivial
  notNull _ h := by cases h
  deserialize_form tree a := by
    rw [form_string]
    exact h a

/-- The variant a text names, or an object whose one member it names. -/
def unitVariant {α : Type} (name : α → String) (all : List α) : Json → Option α
  | .string s => all.find? fun a => name a = s
  | .object [(s, .null)] => all.find? fun a => name a = s
  | _ => none

/-- An enumeration of named variants. -/
@[reducible] def Codec.ofNames {α : Type} (name : α → String) (all : List α)
    (h : ∀ a, (all.find? fun b => name b = name a) = some a) : Codec α where
  serialize a := .string (name a)
  deserialize := unitVariant name all
  depth := 0
  fits _ := trivial
  notNull _ h := by cases h
  deserialize_form tree a := by
    rw [form_string]
    exact h a

/-- A structure: its fields in the order they are declared in, and the reader
of their values. -/
structure Layout (α : Type) where
  names : List String
  members : α → List (String × Json)
  read : List (Option Json) → Option α
  depth : Nat
  nodup : names.Nodup
  names_members : ∀ a, (members a).map (·.1) = names
  fits : ∀ a, ∀ m ∈ members a, Fits depth m.2
  read_form : ∀ tree a, read ((members a).map fun m => some (form tree m.2)) = some a

/-- The derived pair of a structure. -/
@[reducible] def Layout.codec {α : Type} (layout : Layout α) : Codec α where
  serialize a := .object (layout.members a)
  deserialize v := (fields layout.names v).bind layout.read
  depth := layout.depth + 1
  fits := layout.fits
  notNull _ h := by cases h
  deserialize_form tree a := by
    have hnodup : ((layout.members a).map (·.1)).Nodup := by
      rw [layout.names_members a]
      exact layout.nodup
    rw [← layout.names_members a, fields_form hnodup tree]
    exact layout.read_form tree a

/-- A structure written to text is read back, whatever members its reader skips. -/
theorem Layout.deserialize_fromStrAs {α : Type} (layout : Layout α) (h : layout.depth < 127)
    (a : α) : (fromStrAs layout.names (toText (layout.codec.serialize a))).bind
      layout.codec.deserialize = some a := by
  have hread := fromStr_toText (layout.codec.fits a) (show layout.depth + 1 ≤ 127 by omega)
  have hfields := congrArg (Option.bind · layout.read) (fields_fromStrAs layout.names hread)
  simp only [Option.bind_assoc] at hfields
  exact hfields.trans (layout.codec.deserialize_form false a)

end CodingAgent.Serde
