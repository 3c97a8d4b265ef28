import CodingAgent.Core.Base64
import CodingAgent.Core.Fallible
import CodingAgent.Core.Utf8
import CodingAgent.L1Domain.Timestamp
import Mathlib.Data.Nat.Digits.Defs
import Mathlib.Data.UInt

/-!
# The runtime descriptor (`coding-agent-app/src/single_instance.rs`)

The document a primary leaves for later launches: its instance id, process,
port, start and launcher secret. It is written through
`RuntimeDescriptorWire`, whose fields are texts and wide integers, and read
back with every field checked. `unix` is the target: there a process id also
has to fit `pid_t`.

* `new_ok_iff`, `tryFrom_ok_iff`: what the constructor and the reader accept;
  the reader accepts the wire form of a valid descriptor and nothing else.
* `descriptor_codec`: so the two conversions are inverse, and the document
  fits the size limit.
-/
namespace CodingAgent.L4.App.Descriptor
open CodingAgent.L1.Domain
open Base64 (urlSafeNoPad)
open UtcTimestamp.Conversion (parseRfc3339)

/-- mirrors crates/coding-agent-app/src/single_instance.rs:39 -/
def maxDescriptorBytes : Nat := 4 * 1024

/-- mirrors crates/coding-agent-app/src/single_instance.rs:40 -/
def launcherSecretBytes : Nat := 32

/-- `std::num::NonZero` -/
structure NonZero (α : Type) [Zero α] where
  get : α
  ne_zero : get ≠ 0
  deriving DecidableEq

def NonZero.new {α : Type} [Zero α] [DecidableEq α] (n : α) : Option (NonZero α) :=
  if h : n ≠ 0 then some ⟨n, h⟩ else none

/-- `u32::try_from(n).ok()` -/
def u32TryFrom (n : UInt64) : Option UInt32 :=
  if n.toNat < 2 ^ 32 then some n.toUInt32 else none

/-- `u16::try_from(n).ok()` -/
def u16TryFrom (n : UInt64) : Option UInt16 :=
  if n.toNat < 2 ^ 16 then some n.toUInt16 else none

/-- The errors of the conversions.
mirrors crates/coding-agent-app/src/single_instance.rs:167-174 -/
inductive RuntimeDescriptorError where
  | invalid (message : String)
  deriving DecidableEq, Repr

/-- mirrors crates/coding-agent-app/src/security.rs:63-70 -/
structure LauncherSecret where
  asStr : String

/-- mirrors crates/coding-agent-app/src/single_instance.rs:176-183 -/
structure RuntimeDescriptor where
  instanceId : Uuid
  pid : NonZero UInt32
  port : NonZero UInt16
  startedAt : UtcTimestamp
  launcherSecret : String

/-- mirrors crates/coding-agent-app/src/single_instance.rs:298-306 -/
structure RuntimeDescriptorWire where
  instanceId : String
  pid : UInt64
  port : UInt64
  startedAt : String
  launcherSecret : String
  deriving DecidableEq, Repr

/-- The version field of a UUID, the high half of byte 6. -/
def versionNum (id : Uuid) : Nat := id.toNat / 2 ^ 76 % 2 ^ 4

/-- `uuid::Version::Random` -/
def random : Nat := 4

/-- mirrors crates/coding-agent-app/src/single_instance.rs:365-373 -/
def validateInstanceId (instanceId : Uuid) : Except RuntimeDescriptorError Unit :=
  if instanceId = 0 ∨ versionNum instanceId ≠ random then
    .error (.invalid "instance ID is not a version-4 UUID")
  else .ok ()

/-- mirrors crates/coding-agent-app/src/single_instance.rs:375-385 -/
def validateLauncherSecret (secret : String) : Except RuntimeDescriptorError Unit :=
  match urlSafeNoPad.decode secret with
  | none => .error (.invalid "launcher secret encoding is invalid")
  | some decoded =>
    if decoded.length ≠ launcherSecretBytes ∨ urlSafeNoPad.encode decoded ≠ secret then
      .error (.invalid "launcher secret must encode exactly 32 bytes")
    else .ok ()

/-- mirrors crates/coding-agent-app/src/single_instance.rs:387-395 -/
def validatePid (unix : Bool) (pid : NonZero UInt32) : Except RuntimeDescriptorError Unit :=
  if unix = true ∧ 2 ^ 31 - 1 < pid.get.toNat then
    .error (.invalid "process ID is outside the platform range")
  else .ok ()

/-- mirrors crates/coding-agent-app/src/single_instance.rs:186-203 -/
def RuntimeDescriptor.new (unix : Bool) (instanceId : Uuid) (pid : NonZero UInt32)
    (port : NonZero UInt16) (startedAt : UtcTimestamp) (launcherSecret : LauncherSecret) :
    Except RuntimeDescriptorError RuntimeDescriptor := do
  validateInstanceId instanceId
  validatePid unix pid
  validateLauncherSecret launcherSecret.asStr
  return { instanceId, pid, port, startedAt, launcherSecret := launcherSecret.asStr }

namespace RuntimeDescriptorWire

/-- `From<&RuntimeDescriptor>`.
mirrors crates/coding-agent-app/src/single_instance.rs:308-318 -/
def ofDescriptor (descriptor : RuntimeDescriptor) : RuntimeDescriptorWire where
  instanceId := descriptor.instanceId.text
  pid := descriptor.pid.get.toUInt64
  port := descriptor.port.get.toUInt64
  startedAt := descriptor.startedAt.text
  launcherSecret := descriptor.launcherSecret

variable (unix : Bool) (wire : RuntimeDescriptorWire)

/-- mirrors crates/coding-agent-app/src/single_instance.rs:324-331 -/
def readInstanceId : Except RuntimeDescriptorError Uuid :=
  match Uuid.parse wire.instanceId with
  | none => .error (.invalid "instance ID is not a UUID")
  | some instanceId => do
    validateInstanceId instanceId
    if wire.instanceId ≠ instanceId.text then
      .error (.invalid "instance ID is not canonical")
    else .ok instanceId

/-- mirrors crates/coding-agent-app/src/single_instance.rs:333-339 -/
def readPid : Except RuntimeDescriptorError (NonZero UInt32) :=
  match (u32TryFrom wire.pid).bind NonZero.new with
  | none => .error (.invalid "process ID is outside the supported range")
  | some pid => do
    validatePid unix pid
    return pid

/-- mirrors crates/coding-agent-app/src/single_instance.rs:340-345 -/
def readPort : Except RuntimeDescriptorError (NonZero UInt16) :=
  match (u16TryFrom wire.port).bind NonZero.new with
  | none => .error (.invalid "loopback port is outside the supported range")
  | some port => .ok port

/-- The start is what `parse_rfc3339` returned; a text it panics on ends the
call before this.
mirrors crates/coding-agent-app/src/single_instance.rs:346-352 -/
def checkStartedAt (parsed : Except DomainError UtcTimestamp) :
    Except RuntimeDescriptorError UtcTimestamp :=
  match parsed with
  | .error _ => .error (.invalid "start timestamp is invalid")
  | .ok startedAt =>
    if wire.startedAt ≠ startedAt.text then
      .error (.invalid "start timestamp is not canonical UTC")
    else .ok startedAt

/-- The fields before the start. -/
def readAddress :
    Except RuntimeDescriptorError (Uuid × NonZero UInt32 × NonZero UInt16) := do
  let instanceId ← wire.readInstanceId
  let pid ← wire.readPid unix
  let port ← wire.readPort
  return (instanceId, pid, port)

/-- `TryFrom<RuntimeDescriptorWire>`.
mirrors crates/coding-agent-app/src/single_instance.rs:320-363 -/
def tryFrom : Outcome (Except RuntimeDescriptorError RuntimeDescriptor) :=
  match wire.readAddress unix with
  | .error error => .returned (.error error)
  | .ok (instanceId, pid, port) =>
    match parseRfc3339 OffsetDateTime.parse wire.startedAt with
    | .panicked => .panicked
    | .returned parsed => .returned do
      let startedAt ← wire.checkStartedAt parsed
      validateLauncherSecret wire.launcherSecret
      return { instanceId, pid, port, startedAt, launcherSecret := wire.launcherSecret }

/-- The derived `Serialize`. -/
def serialize : Json :=
  .object [("instance_id", .string wire.instanceId), ("pid", .int wire.pid.toNat),
    ("port", .int wire.port.toNat), ("started_at", .string wire.startedAt),
    ("launcher_secret", .string wire.launcherSecret)]

/-- The bytes of the document.
mirrors crates/coding-agent-app/src/single_instance.rs:227 -/
def encoded : List UInt8 := Utf8.encode (Json.print wire.serialize)

end RuntimeDescriptorWire

open RuntimeDescriptorWire Fallible

/-! ## The checks -/

theorem NonZero.new_eq_some {α : Type} [Zero α] [DecidableEq α] {n : α} {a : NonZero α} :
    NonZero.new n = some a ↔ n = a.get := by
  constructor
  · intro h
    unfold NonZero.new at h
    split at h
    · cases h
      rfl
    · cases h
  · rintro rfl
    exact dif_pos a.ne_zero

theorem NonZero.bind_new_eq_some {α : Type} [Zero α] [DecidableEq α] {o : Option α}
    {a : NonZero α} : o.bind NonZero.new = some a ↔ o = some a.get := by
  rw [Option.bind_eq_some_iff]
  constructor
  · rintro ⟨n, hn, ha⟩
    rw [hn, NonZero.new_eq_some.1 ha]
  · exact fun h => ⟨_, h, NonZero.new_eq_some.2 rfl⟩

theorem u32TryFrom_eq_some {n : UInt64} {m : UInt32} :
    u32TryFrom n = some m ↔ n = m.toUInt64 := by
  constructor
  · intro h
    obtain ⟨hlt, hm⟩ := Option.ite_none_right_eq_some.1 h
    obtain rfl := Option.some.inj hm
    apply UInt64.toNat_inj.1
    rw [UInt32.toNat_toUInt64, UInt64.toNat_toUInt32]
    omega
  · rintro rfl
    have hlt := m.toNat_lt
    rw [u32TryFrom, if_pos (by rwa [UInt32.toNat_toUInt64]), UInt32.toUInt32_toUInt64]

theorem u16TryFrom_eq_some {n : UInt64} {m : UInt16} :
    u16TryFrom n = some m ↔ n = m.toUInt64 := by
  constructor
  · intro h
    obtain ⟨hlt, hm⟩ := Option.ite_none_right_eq_some.1 h
    obtain rfl := Option.some.inj hm
    apply UInt64.toNat_inj.1
    rw [UInt16.toNat_toUInt64, UInt64.toNat_toUInt16]
    omega
  · rintro rfl
    have hlt := m.toNat_lt
    rw [u16TryFrom, if_pos (by rwa [UInt16.toNat_toUInt64]), UInt16.toUInt16_toUInt64]

theorem validateInstanceId_eq_ok {id : Uuid} :
    validateInstanceId id = .ok () ↔ versionNum id = random := by
  rw [validateInstanceId, guard_eq_ok, not_or, not_not]
  constructor
  · exact fun h => h.1.2
  · intro h
    refine ⟨⟨?_, h⟩, rfl⟩
    -- the nil UUID has version 0
    rintro rfl
    cases h

theorem validatePid_eq_ok {unix : Bool} {pid : NonZero UInt32} :
    validatePid unix pid = .ok () ↔ (unix = true → pid.get.toNat < 2 ^ 31) := by
  rw [validatePid, guard_eq_ok, not_and]
  constructor
  · intro h hunix
    have := h.1 hunix
    omega
  · intro h
    refine ⟨fun hunix => ?_, rfl⟩
    have := h hunix
    omega

theorem validateLauncherSecret_eq_ok {secret : String} :
    validateLauncherSecret secret = .ok () ↔
      ∃ bytes : List UInt8, bytes.length = launcherSecretBytes ∧
        secret = urlSafeNoPad.encode bytes := by
  unfold validateLauncherSecret
  cases hdecode : urlSafeNoPad.decode secret with
  | none =>
    refine iff_of_false (by simp) ?_
    rintro ⟨bytes, -, rfl⟩
    rw [urlSafeNoPad.decode_encode] at hdecode
    cases hdecode
  | some decoded =>
    have hsecret := urlSafeNoPad.strict secret decoded hdecode
    dsimp only
    rw [guard_eq_ok, not_or, not_not, not_not]
    constructor
    · exact fun h => ⟨decoded, h.1.1, hsecret⟩
    · rintro ⟨bytes, hlength, hbytes⟩
      obtain rfl := urlSafeNoPad.encode_inj.1 (hbytes.symm.trans hsecret)
      exact ⟨⟨hlength, hbytes.symm⟩, rfl⟩

/-- What the checks leave of a descriptor; the types of its fields say the rest. -/
structure RuntimeDescriptor.Valid (unix : Bool) (d : RuntimeDescriptor) : Prop where
  instanceId : versionNum d.instanceId = random
  pid : unix = true → d.pid.get.toNat < 2 ^ 31
  launcherSecret : ∃ bytes : List UInt8, bytes.length = launcherSecretBytes ∧
    d.launcherSecret = urlSafeNoPad.encode bytes

/-- The constructor keeps what it is given, if it is valid. -/
theorem new_ok_iff {unix : Bool} {instanceId : Uuid} {pid : NonZero UInt32} {port : NonZero UInt16}
    {startedAt : UtcTimestamp} {launcherSecret : LauncherSecret} {d : RuntimeDescriptor} :
    RuntimeDescriptor.new unix instanceId pid port startedAt launcherSecret = .ok d ↔
      d = ⟨instanceId, pid, port, startedAt, launcherSecret.asStr⟩ ∧ d.Valid unix := by
  unfold RuntimeDescriptor.new
  constructor
  · intro h
    obtain ⟨⟨⟩, hid, h⟩ := bind_eq_ok.1 h
    obtain ⟨⟨⟩, hpid, h⟩ := bind_eq_ok.1 h
    obtain ⟨⟨⟩, hsecret, h⟩ := bind_eq_ok.1 h
    cases h
    exact ⟨rfl, validateInstanceId_eq_ok.1 hid, validatePid_eq_ok.1 hpid,
      validateLauncherSecret_eq_ok.1 hsecret⟩
  · rintro ⟨rfl, hid, hpid, hsecret⟩
    rw [validateInstanceId_eq_ok.2 hid, validatePid_eq_ok.2 hpid,
      validateLauncherSecret_eq_ok.2 hsecret]
    rfl

/-! ## The wire form -/

section
variable {unix : Bool} {wire : RuntimeDescriptorWire}

theorem readInstanceId_eq_ok {id : Uuid} :
    wire.readInstanceId = .ok id ↔ wire.instanceId = id.text ∧ versionNum id = random := by
  unfold readInstanceId
  constructor
  · intro h
    split at h
    · cases h
    · obtain ⟨⟨⟩, hversion, h⟩ := bind_eq_ok.1 h
      obtain ⟨htext, h⟩ := guard_eq_ok.1 h
      cases h
      exact ⟨not_not.1 htext, validateInstanceId_eq_ok.1 hversion⟩
  · rintro ⟨htext, hversion⟩
    rw [htext, Uuid.parse_text]
    exact bind_eq_ok.2 ⟨(), validateInstanceId_eq_ok.2 hversion, if_neg (not_not.2 rfl)⟩

theorem readPid_eq_ok {pid : NonZero UInt32} :
    wire.readPid unix = .ok pid ↔
      wire.pid = pid.get.toUInt64 ∧ (unix = true → pid.get.toNat < 2 ^ 31) := by
  rw [← u32TryFrom_eq_some, ← NonZero.bind_new_eq_some, ← validatePid_eq_ok, readPid]
  cases (u32TryFrom wire.pid).bind NonZero.new with
  | none => simp
  | some read =>
    constructor
    · intro h
      obtain ⟨⟨⟩, hvalid, h⟩ := bind_eq_ok.1 h
      cases h
      exact ⟨rfl, hvalid⟩
    · rintro ⟨hsome, hvalid⟩
      cases hsome
      exact bind_eq_ok.2 ⟨(), hvalid, rfl⟩

theorem readPort_eq_ok {port : NonZero UInt16} :
    wire.readPort = .ok port ↔ wire.port = port.get.toUInt64 := by
  rw [← u16TryFrom_eq_some, ← NonZero.bind_new_eq_some, readPort]
  cases (u16TryFrom wire.port).bind NonZero.new <;> simp

theorem checkStartedAt_eq_ok {parsed : Except DomainError UtcTimestamp} {t : UtcTimestamp} :
    wire.checkStartedAt parsed = .ok t ↔ parsed = .ok t ∧ wire.startedAt = t.text := by
  cases parsed with
  | error e => simp [checkStartedAt]
  | ok read =>
    simp only [checkStartedAt, guard_eq_ok, not_not, Except.ok.injEq]
    constructor
    · rintro ⟨htext, rfl⟩
      exact ⟨rfl, htext⟩
    · rintro ⟨rfl, htext⟩
      exact ⟨htext, rfl⟩

/-- The text of a timestamp is read without a panic. -/
theorem parseRfc3339_text (t : UtcTimestamp) :
    parseRfc3339 OffsetDateTime.parse t.text = .returned (.ok t) := by
  rw [UtcTimestamp.Conversion.parseRfc3339_eq, UtcTimestamp.parseRfc3339_text]
  intro instant h
  rw [UtcTimestamp.text, String.toList_ofList, Rfc3339.parse_format t.instant_lt] at h
  obtain rfl := Option.some.inj h
  have hlt := t.instant_lt
  generalize (t.nanos - minNanos).toNat = n at hlt ⊢
  simp only [Rfc3339.nanosPerDay] at hlt ⊢
  omega

/-- **The reader accepts the wire form of a valid descriptor, as that
descriptor, and nothing else.** -/
theorem tryFrom_ok_iff {d : RuntimeDescriptor} :
    wire.tryFrom unix = .returned (.ok d) ↔ wire = ofDescriptor d ∧ d.Valid unix := by
  unfold tryFrom
  constructor
  · intro h
    split at h
    · cases h
    · rename_i instanceId pid port haddress
      split at h
      · cases h
      · rename_i parsed hparsed
        obtain ⟨startedAt, hstarted, h⟩ := bind_eq_ok.1 (Outcome.returned.inj h)
        obtain ⟨⟨⟩, hsecret, h⟩ := bind_eq_ok.1 h
        cases h
        obtain ⟨_, hid, haddress⟩ := bind_eq_ok.1 haddress
        obtain ⟨_, hpid, haddress⟩ := bind_eq_ok.1 haddress
        obtain ⟨_, hport, haddress⟩ := bind_eq_ok.1 haddress
        cases haddress
        obtain ⟨hid, hversion⟩ := readInstanceId_eq_ok.1 hid
        obtain ⟨hpid, hrange⟩ := readPid_eq_ok.1 hpid
        have hport := readPort_eq_ok.1 hport
        obtain ⟨-, hstarted⟩ := checkStartedAt_eq_ok.1 hstarted
        refine ⟨?_, hversion, hrange, validateLauncherSecret_eq_ok.1 hsecret⟩
        obtain ⟨⟩ := wire
        simp only at hid hpid hport hstarted
        rw [ofDescriptor, hid, hpid, hport, hstarted]
  · rintro ⟨rfl, hversion, hrange, hsecret⟩
    have haddress : (ofDescriptor d).readAddress unix = .ok (d.instanceId, d.pid, d.port) :=
      bind_eq_ok.2 ⟨_, readInstanceId_eq_ok.2 ⟨rfl, hversion⟩,
        bind_eq_ok.2 ⟨_, readPid_eq_ok.2 ⟨rfl, hrange⟩,
          bind_eq_ok.2 ⟨_, readPort_eq_ok.2 rfl, rfl⟩⟩⟩
    have hparse : parseRfc3339 OffsetDateTime.parse (ofDescriptor d).startedAt =
        .returned (.ok d.startedAt) := parseRfc3339_text d.startedAt
    rw [haddress, hparse]
    refine congrArg Outcome.returned (bind_eq_ok.2 ⟨d.startedAt, ?_, ?_⟩)
    · exact checkStartedAt_eq_ok.2 ⟨rfl, rfl⟩
    · exact bind_eq_ok.2 ⟨(), validateLauncherSecret_eq_ok.2 hsecret, rfl⟩

end

/-! ## The document -/

theorem startedAt_length (t : UtcTimestamp) : t.text.length = 30 := by
  rw [← String.length_toList, UtcTimestamp.text, String.toList_ofList]
  simp [Rfc3339.format, Rfc3339.formatDate, Rfc3339.formatClock]

theorem instanceId_length (id : Uuid) : id.text.length = 36 := by
  rw [← String.length_toList, Uuid.text, String.toList_ofList, UuidText.format_length]

theorem launcherSecret_length {bytes : List UInt8} (h : bytes.length = launcherSecretBytes) :
    (urlSafeNoPad.encode bytes).length = 43 := by
  have henc : (urlSafeNoPad.encode bytes).toList = Base64.encodeChars bytes :=
    String.toList_ofList
  rw [← String.length_toList, henc, Base64.encodeChars_length, h]
  rfl

theorem printInt_length_le (n : UInt64) : (Json.printInt n.toNat).length ≤ 20 := by
  have hlt := n.toNat_lt
  rw [Json.printInt, if_neg (by omega), Int.natAbs_natCast]
  exact Nat.toDigits_length 10 _ 20 (by omega) (by omega)

/-- Every character of a field takes six characters at most, and every one of
those four bytes. -/
theorem encoded_length_le (d : RuntimeDescriptor) {unix : Bool} (h : d.Valid unix) :
    (ofDescriptor d).encoded.length ≤ maxDescriptorBytes := by
  obtain ⟨bytes, hbytes, hsecret⟩ := h.launcherSecret
  have hid := Json.printString_length_le d.instanceId.text
  have hstarted := Json.printString_length_le d.startedAt.text
  have hsecret' := Json.printString_length_le d.launcherSecret
  have hpid := printInt_length_le d.pid.get.toUInt64
  have hport := printInt_length_le d.port.get.toUInt64
  have hkeys : ((Json.printString "instance_id").length = 13 ∧
      (Json.printString "pid").length = 5) ∧ (Json.printString "port").length = 6 ∧
      (Json.printString "started_at").length = 12 ∧
      (Json.printString "launcher_secret").length = 17 := by decide
  rw [instanceId_length] at hid
  rw [startedAt_length] at hstarted
  rw [hsecret, launcherSecret_length hbytes] at hsecret'
  have hdocument : (Json.print (ofDescriptor d).serialize).length ≤ 1024 := by
    simp only [serialize, ofDescriptor, Json.print, Json.printMembers, List.length_cons,
      List.length_append, List.length_nil, hkeys, hsecret]
    omega
  have hencoded := Utf8.encode_length_le (Json.print (ofDescriptor d).serialize)
  rw [encoded, maxDescriptorBytes]
  omega

/-- What the reader accepts: the canonical hyphenated text of a version-4 UUID,
a process and a port in range, the 30 characters of a UTC timestamp, and the
encoding of 32 bytes. -/
structure RuntimeDescriptorWire.Canonical (unix : Bool) (wire : RuntimeDescriptorWire) : Prop where
  instanceId : ∃ id : Uuid, versionNum id = random ∧ wire.instanceId = id.text
  pid : 0 < wire.pid.toNat ∧ wire.pid.toNat < 2 ^ 32 ∧ (unix = true → wire.pid.toNat < 2 ^ 31)
  port : 0 < wire.port.toNat ∧ wire.port.toNat < 2 ^ 16
  startedAt : wire.startedAt.length = 30 ∧ ∃ t : UtcTimestamp, wire.startedAt = t.text
  launcherSecret : ∃ bytes : List UInt8, bytes.length = launcherSecretBytes ∧
    wire.launcherSecret = urlSafeNoPad.encode bytes

theorem canonical_iff {unix : Bool} {wire : RuntimeDescriptorWire} :
    wire.Canonical unix ↔ ∃ d : RuntimeDescriptor, wire = ofDescriptor d ∧ d.Valid unix := by
  constructor
  · rintro ⟨⟨id, hversion, hid⟩, ⟨hpid, hpid32, hpid31⟩, ⟨hport, hport16⟩, ⟨-, t, ht⟩, hsecret⟩
    have hp : wire.pid.toUInt32.toNat = wire.pid.toNat := by
      rw [UInt64.toNat_toUInt32, Nat.mod_eq_of_lt hpid32]
    have hq : wire.port.toUInt16.toNat = wire.port.toNat := by
      rw [UInt64.toNat_toUInt16, Nat.mod_eq_of_lt hport16]
    have hp0 : wire.pid.toUInt32 ≠ 0 := by
      intro h
      rw [h] at hp
      exact absurd hp.symm (Nat.ne_of_gt hpid)
    have hq0 : wire.port.toUInt16 ≠ 0 := by
      intro h
      rw [h] at hq
      exact absurd hq.symm (Nat.ne_of_gt hport)
    refine ⟨⟨id, ⟨_, hp0⟩, ⟨_, hq0⟩, t, wire.launcherSecret⟩, ?_, hversion, ?_, hsecret⟩
    · have hpw : wire.pid.toUInt32.toUInt64 = wire.pid :=
        (u32TryFrom_eq_some.1 (if_pos hpid32)).symm
      have hqw : wire.port.toUInt16.toUInt64 = wire.port :=
        (u16TryFrom_eq_some.1 (if_pos hport16)).symm
      rw [ofDescriptor, hpw, hqw, ← hid, ← ht]
    · rwa [hp]
  · rintro ⟨d, rfl, hversion, hrange, hsecret⟩
    have hpid : (ofDescriptor d).pid.toNat = d.pid.get.toNat := UInt32.toNat_toUInt64 _
    have hport : (ofDescriptor d).port.toNat = d.port.get.toNat := UInt16.toNat_toUInt64 _
    refine ⟨⟨_, hversion, rfl⟩, ?_, ?_, ⟨startedAt_length _, _, rfl⟩, hsecret⟩
    · rw [hpid]
      exact ⟨Nat.pos_of_ne_zero fun h => d.pid.ne_zero (UInt32.toNat_inj.1 h), d.pid.get.toNat_lt,
        hrange⟩
    · rw [hport]
      exact ⟨Nat.pos_of_ne_zero fun h => d.port.ne_zero (UInt16.toNat_inj.1 h), d.port.get.toNat_lt⟩

/-- **The descriptor codec.** What `new` builds is read back from its wire
form as it was, and its document fits the limit; a wire document is accepted
exactly when it is canonical, and what it is accepted as is written back to
it. -/
theorem descriptor_codec (unix : Bool) :
    (∀ instanceId pid port startedAt launcherSecret d,
      RuntimeDescriptor.new unix instanceId pid port startedAt launcherSecret = .ok d →
        (ofDescriptor d).tryFrom unix = .returned (.ok d) ∧
          (ofDescriptor d).encoded.length ≤ maxDescriptorBytes) ∧
    (∀ wire d, tryFrom unix wire = .returned (.ok d) → ofDescriptor d = wire) ∧
    ∀ wire, (∃ d, tryFrom unix wire = .returned (.ok d)) ↔ wire.Canonical unix := by
  refine ⟨?_, ?_, ?_⟩
  · intro instanceId pid port startedAt launcherSecret d h
    have hvalid := (new_ok_iff.1 h).2
    exact ⟨tryFrom_ok_iff.2 ⟨rfl, hvalid⟩, encoded_length_le d hvalid⟩
  · intro wire d h
    exact (tryFrom_ok_iff.1 h).1.symm
  · intro wire
    rw [canonical_iff]
    exact exists_congr fun d => tryFrom_ok_iff

/-- A descriptor of process 4321 on port 8080, with a secret of zeros. -/
theorem descriptor_codec_sample :
    ∃ d : RuntimeDescriptor,
      RuntimeDescriptor.new true 0x0123456789ab4def8123456789abcdef#128 ⟨4321, by decide⟩
        ⟨8080, by decide⟩ ⟨0, by decide, by decide⟩
        ⟨"AAAAAAAAAAAAAAAAAAAAAAAAAAAAAAAAAAAAAAAAAAA"⟩ = .ok d ∧
      (ofDescriptor d).tryFrom true = .returned (.ok d) ∧
      (ofDescriptor d).encoded.length ≤ maxDescriptorBytes := by
  have hnew : RuntimeDescriptor.new true 0x0123456789ab4def8123456789abcdef#128 ⟨4321, by decide⟩
      ⟨8080, by decide⟩ ⟨0, by decide, by decide⟩
      ⟨"AAAAAAAAAAAAAAAAAAAAAAAAAAAAAAAAAAAAAAAAAAA"⟩ = .ok _ :=
    new_ok_iff.2 ⟨rfl, by decide, by decide, List.replicate 32 0, rfl, by decide⟩
  exact ⟨_, hnew, (descriptor_codec true).1 _ _ _ _ _ _ hnew⟩

end CodingAgent.L4.App.Descriptor
