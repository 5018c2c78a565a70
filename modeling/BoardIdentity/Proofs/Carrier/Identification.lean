import BoardIdentity.Carrier.Revision
import BoardIdentity.Proofs.Bytes.RecordLayouts
import BoardIdentity.Proofs.Eeprom.Reads
import BoardIdentity.Proofs.I2c.ImageLookup

/-!
# How a carrier board is identified

A board has the revision that its record states if the record is found, read and accepted, and is a
legacy board in every other case (`identified_or_legacy`).  `Delivers` says which bytes are read, if
any, and `Accepted` which of them make a record that is to be believed, both without a word about
records: what the fields of the record are is settled in `isAccepted_ofBytes_iff`.
-/

namespace BoardIdentity

/-! ## Text in a field -/

/-- The longest prefix of a field that holds no zero byte. -/
structure TextField.Holds (field text : List UInt8) : Prop where
  front : text <+: field
  nonzero : 0 ∉ text
  longest : ∀ other, other <+: field → 0 ∉ other → other <+: text

namespace TextField

theorem holds_trim (field : List UInt8) : Holds field (trim field) where
  front := List.takeWhile_prefix _
  nonzero member := ne_zero_of_mem_trim member rfl
  longest := by
    rintro other ⟨rest, rfl⟩ nonzero
    have kept : ∀ byte ∈ other, (byte != 0) = true := by
      intro byte member
      exact bne_iff_ne.mpr fun zero => nonzero (zero ▸ member)
    exact ⟨trim rest, (List.takeWhile_append_of_pos kept).symm⟩

theorem Holds.eq {field text other : List UInt8} (holds : Holds field text)
    (holdsToo : Holds field other) : text = other :=
  (holdsToo.longest text holds.front holds.nonzero).eq_of_length_le
    (holds.longest other holdsToo.front holdsToo.nonzero).length_le

end TextField

namespace Carrier

/-! ## Verification -/

namespace Record

variable {record : Record}

theorem verify_of_wrong_magic (wrong : record.magic ≠ Carrier.magic) :
    record.verify = .error (.wrongMagic record.magic Carrier.magic) := by
  rw [verify, if_pos wrong]

theorem verify_of_unknown_version (right : record.magic = Carrier.magic)
    (unknown : record.version = 0) : record.verify = .error (.unknownVersion 0) := by
  rw [verify, if_neg (not_not_intro right), if_pos unknown]

/-- From version 2 on, the checksum decides. -/
theorem verify_of_checksum (right : record.magic = Carrier.magic) (recent : 2 ≤ record.version) :
    record.verify = if record.properCrc = record.crc then .ok ()
      else .error (.wrongCrc record.properCrc record.crc) := by
  have known : record.version ≠ 0 := fun unknown => absurd (unknown ▸ recent) (by decide)
  have checked : record.version ≠ 1 := fun unchecked => absurd (unchecked ▸ recent) (by decide)
  simp only [verify, right, known, checked, ne_eq, not_true_eq_false, if_false, false_or]

theorem verify_eq_ok_iff : record.verify = .ok () ↔ record.magic = Carrier.magic ∧
    (record.version = 1 ∨ 2 ≤ record.version ∧ record.crc = record.properCrc) := by
  by_cases right : record.magic = Carrier.magic
  case neg => simp [verify_of_wrong_magic right, right]
  by_cases unknown : record.version = 0
  · simp [verify_of_unknown_version right unknown, unknown]
  by_cases unchecked : record.version = 1
  · simp [verify, right, unchecked]
  have recent : 2 ≤ record.version := by
    have := mt UInt8.toNat_inj.mp unknown
    have := mt UInt8.toNat_inj.mp unchecked
    rw [UInt8.le_iff_toNat_le]
    simp only [UInt8.reduceToNat] at *
    omega
  rw [verify_of_checksum right recent]
  by_cases same : record.properCrc = record.crc
  · simp [right, recent, same]
  · simp [unchecked, same, Ne.symm same]

end Record

/-- The bytes of a record that is to be believed: the number of a carrier record, highest byte
first, then a version, which is 1, or 2 and more with the right checksum in the last four bytes. -/
structure Accepted (bytes : Vector UInt8 23) : Prop where
  magic : Endian.bigEndian (bytes.toList.take 2) = 0x5643
  checked : bytes[2] = 1 ∨ (2 : UInt8) ≤ bytes[2] ∧
    Endian.bigEndian (bytes.toList.drop 19) = (Crc32.checksum (bytes.toList.take 19)).toNat

theorem isAccepted_ofBytes_iff (bytes : Vector UInt8 23) :
    (Record.ofBytes bytes).isAccepted = true ↔ Accepted bytes := by
  have accepted : (Record.ofBytes bytes).isAccepted = true ↔
      (Record.ofBytes bytes).verify = .ok () := by
    rw [Record.isAccepted]
    cases (Record.ofBytes bytes).verify <;> simp [Except.isOk, Except.toBool]
  rw [accepted, Record.verify_eq_ok_iff, ← UInt16.toNat_inj, ← UInt32.toNat_inj,
    Record.toNat_magic_ofBytes, Record.toNat_crc_ofBytes, Record.properCrc,
    Record.toList_covered_ofBytes]
  exact ⟨fun ⟨right, checked⟩ => ⟨right, checked⟩, fun ⟨right, checked⟩ => ⟨right, checked⟩⟩

/-! ## What is read -/

section AnyBus

variable {β κ : Type} [I2c.Bus β] [Cache κ] {bus : β} {name : String} {address : UInt8}
  {bytes : Vector UInt8 23}

/-- A probe succeeds, and the read that follows it delivers the first 23 bytes. -/
def Delivers (bus : β) (name : String) (address : UInt8) (bytes : Vector UInt8 23) : Prop :=
  ∃ device, (I2c.Bus.probe bus name address).1 = .ok device ∧
    (I2c.Bus.read (I2c.Bus.probe bus name address).2 device 0 23).1 = .ok bytes

/-- A record is read exactly if its bytes are delivered. -/
theorem readRecord_eq_ok_iff {cache : κ} {record : Record} :
    (readRecord bus name address cache).1 = .ok record ↔
      ∃ bytes, Delivers bus name address bytes ∧ Record.ofBytes bytes = record := by
  unfold readRecord Eeprom.find Delivers
  rcases I2c.Bus.probe bus name address with ⟨fault | device, after⟩
  · simp
  · simp only [Except.ok.injEq, exists_eq_left']
    rw [Eeprom.read_fst]
    show Eeprom.ofAnswer (I2c.Bus.read after device 0 23).1 = .ok record ↔ _
    rcases (I2c.Bus.read after device 0 23).1 with fault | bytes
    · simp [Eeprom.ofAnswer]
    · simp [Eeprom.ofAnswer, Layout.ofBytes]

/-- The text of a field is never longer than a revision may be. -/
theorem Revision.bytes_ofBytes_trim (record : Record) :
    (ofBytes (TextField.trim record.revision.toList)).bytes =
      TextField.trim record.revision.toList := by
  refine bytes_ofBytes ?_
  have short := (TextField.holds_trim record.revision.toList).front.length_le
  rwa [Vector.length_toList] at short

theorem revision_of_accepted (cache : κ) (delivered : Delivers bus name address bytes)
    (accepted : Accepted bytes) :
    (Revision.ofAttempt (readRecord bus name address cache).1).bytes =
      TextField.trim ((bytes.toList.drop 3).take 16) := by
  rw [readRecord_eq_ok_iff.mpr ⟨bytes, delivered, rfl⟩, Revision.ofAttempt, Revision.ofRecord,
    if_pos ((isAccepted_ofBytes_iff bytes).mpr accepted), Revision.bytes_ofBytes_trim,
    Record.toList_revision_ofBytes]

theorem revision_of_not_accepted (cache : κ)
    (refused : ∀ bytes, Delivers bus name address bytes → ¬ Accepted bytes) :
    Revision.ofAttempt (readRecord bus name address cache).1 = Revision.legacy := by
  rcases attempt : (readRecord bus name address cache).1 with fault | record
  · rfl
  · obtain ⟨bytes, delivered, rfl⟩ := readRecord_eq_ok_iff.mp attempt
    rw [Revision.ofAttempt, Revision.ofRecord,
      if_neg (mt (isAccepted_ofBytes_iff bytes).mp (refused bytes delivered))]

end AnyBus

/-- The bytes are the first 23 of the first device of the name and the address, the bus has a
controller, the address is not reserved, and none of the 23 bytes is broken. -/
structure Stored (bus : I2c.ImageBus) (name : String) (address : UInt8)
    (bytes : Vector UInt8 23) : Prop where
  unreserved : 0x08 ≤ address.toNat ∧ address.toNat ≤ 0x7b
  controlled : ∃ controller : I2c.Controller, bus.names.idxOf? name = some controller.val
  unbroken : ∀ broken, bus.broken = some broken → 23 ≤ broken.offset.toNat
  content : ∃ device, bus.first? name address = some device ∧ 23 ≤ device.image.length ∧
    bytes.toList = device.image.take 23

/-- The bus in memory delivers what is stored. -/
theorem delivers_iff_stored {bus : I2c.ImageBus} {name : String} {address : UInt8}
    {bytes : Vector UInt8 23} :
    Delivers bus name address bytes ↔ Stored bus name address bytes := by
  have fetched : ∀ device, (I2c.Bus.read (I2c.Bus.probe bus name address).2 device 0 23).1 =
      bus.fetch device 0 23 := fun device =>
    I2c.ImageBus.read_fst_eq_fetch _ device 0 (by decide)
  have beyond : ∀ broken : I2c.BrokenByte,
      broken.isTouched 0 23 = false ↔ 23 ≤ broken.offset.toNat := by
    intro broken
    rw [← Bool.not_eq_true, I2c.BrokenByte.isTouched_iff]
    simp [UInt32.size]
  constructor
  · rintro ⟨device, resolved, read⟩
    obtain ⟨unreserved, searched, -, present⟩ := I2c.ImageBus.resolve_eq_ok_iff.mp resolved
    obtain ⟨stored, first⟩ := Option.isSome_iff_exists.mp present
    have seen := (I2c.ImageBus.device?_of_resolve resolved).trans first
    obtain ⟨untouched, inside, content⟩ :=
      (I2c.ImageBus.fetch_eq_ok_iff seen).mp ((fetched device).symm.trans read)
    exact ⟨unreserved, ⟨_, searched⟩,
      fun broken breaks => (beyond broken).mp (untouched broken breaks),
      stored, first, by simpa using inside, content⟩
  · rintro ⟨unreserved, ⟨controller, searched⟩, unbroken, stored, first, inside, content⟩
    have resolved : bus.resolve name address = .ok { controller, address } :=
      I2c.ImageBus.resolve_eq_ok_iff.mpr ⟨unreserved, searched, rfl, by rw [first]; rfl⟩
    have seen := (I2c.ImageBus.device?_of_resolve resolved).trans first
    refine ⟨_, resolved, (fetched _).trans ((I2c.ImageBus.fetch_eq_ok_iff seen).mpr ⟨?_, ?_, ?_⟩)⟩
    · exact fun broken breaks => (beyond broken).mpr (unbroken broken breaks)
    · simpa using inside
    · exact content

/-! ## Identification -/

theorem Revision.bytes_legacy : legacy.bytes = "legacy".toUTF8.toList := by
  decide +kernel

theorem Revision.isLegacy_iff {revision : Revision} :
    revision.isLegacy = true ↔ revision.bytes = legacy.bytes := by
  rw [isLegacy, decide_eq_true_iff]
  rfl

/-- **A carrier board is identified by an accepted record and is a legacy board without one.**  Its
revision is the text of the sixteen bytes behind the version, none of which is lost.  Of the reasons
to refuse a record, the magic number comes before the version and the version before the checksum,
and of all checksums exactly the proper one is accepted. -/
theorem identified_or_legacy {κ : Type} [Cache κ] (bus : I2c.ImageBus) (name : String)
    (address : UInt8) (cache : κ) :
    let revision := Revision.ofAttempt (readRecord bus name address cache).1
    let identifies := fun bytes => Delivers bus name address bytes ∧ Accepted bytes
    let field := fun bytes : Vector UInt8 23 => (bytes.toList.drop 3).take 16
    let legacy := "legacy".toUTF8.toList
    (∀ bytes, identifies bytes → TextField.Holds (field bytes) revision.bytes) ∧
      ((∀ bytes, ¬ identifies bytes) → revision.bytes = legacy) ∧
      (revision.isLegacy = true ↔ (∀ bytes, ¬ identifies bytes) ∨
        ∃ bytes, identifies bytes ∧ TextField.Holds (field bytes) legacy) ∧
      (∀ bytes, Delivers bus name address bytes ↔ Stored bus name address bytes) ∧
      ∀ record : Record,
        (record.magic ≠ Carrier.magic →
          record.verify = .error (.wrongMagic record.magic Carrier.magic)) ∧
        (record.magic = Carrier.magic → record.version = 0 →
          record.verify = .error (.unknownVersion 0)) ∧
        (record.magic = Carrier.magic → record.version = 1 → record.verify = .ok ()) ∧
        (record.magic = Carrier.magic → 2 ≤ record.version →
          (record.crc ≠ record.properCrc →
            record.verify = .error (.wrongCrc record.properCrc record.crc)) ∧
          ∀ crc, { record with crc }.verify = .ok () ↔ crc = record.properCrc) ∧
        ∀ crc, { record with crc }.properCrc = record.properCrc := by
  intro revision identifies field legacy
  have identified : ∀ bytes, identifies bytes → revision.bytes = TextField.trim (field bytes) :=
    fun bytes ⟨delivered, accepted⟩ => revision_of_accepted cache delivered accepted
  have unidentified : (∀ bytes, ¬ identifies bytes) → revision = Revision.legacy := fun refused =>
    revision_of_not_accepted cache fun bytes delivered accepted =>
      refused bytes ⟨delivered, accepted⟩
  refine ⟨?_, ?_, ⟨?_, ?_⟩, fun bytes => delivers_iff_stored, fun record => ⟨?_, ?_, ?_, ?_, ?_⟩⟩
  · intro bytes identifying
    rw [identified bytes identifying]
    exact TextField.holds_trim (field bytes)
  · intro refused
    rw [unidentified refused, Revision.bytes_legacy]
  · intro isLegacy
    rw [Revision.isLegacy_iff, Revision.bytes_legacy] at isLegacy
    by_cases refused : ∀ bytes, ¬ identifies bytes
    · exact Or.inl refused
    · obtain ⟨bytes, identifying⟩ := not_forall_not.mp refused
      have text : legacy = TextField.trim (field bytes) :=
        isLegacy.symm.trans (identified bytes identifying)
      rw [text]
      exact Or.inr ⟨bytes, identifying, TextField.holds_trim (field bytes)⟩
  · rw [Revision.isLegacy_iff, Revision.bytes_legacy]
    rintro (refused | ⟨bytes, identifying, holds⟩)
    · rw [unidentified refused, Revision.bytes_legacy]
    · rw [identified bytes identifying]
      exact (TextField.holds_trim (field bytes)).eq holds
  · exact Record.verify_of_wrong_magic
  · exact Record.verify_of_unknown_version
  · exact fun right unchecked => Record.verify_eq_ok_iff.mpr ⟨right, Or.inl unchecked⟩
  · intro right recent
    refine ⟨fun wrong => ?_, fun crc => ?_⟩
    · rw [Record.verify_of_checksum right recent, if_neg (Ne.symm wrong)]
    · have later : record.version ≠ 1 := fun unchecked => absurd (unchecked ▸ recent) (by decide)
      rw [Record.verify_eq_ok_iff]
      exact ⟨fun accepted => (accepted.2.resolve_left later).2,
        fun proper => ⟨right, Or.inr ⟨recent, proper⟩⟩⟩
  · exact fun crc => rfl

/-- A record of version 2 with the text `1.4a` and the right checksum. -/
theorem identified_of_version_two :
    let bytes : Vector UInt8 23 :=
      #v[0x56, 0x43, 2, 0x31, 0x2e, 0x34, 0x61, 0, 0, 0, 0, 0, 0, 0, 0, 0, 0, 0, 0,
        0xc6, 0x70, 0x12, 0x76]
    let bus : I2c.ImageBus :=
      { names := ["i2c3", "i2c4"]
        devices := [{ bus := "i2c4", address := 0x54, image := bytes.toList }] }
    let cache : Option FlushCount := none
    Delivers bus "i2c4" 0x54 bytes ∧ Accepted bytes ∧
      (Revision.ofAttempt (readRecord bus "i2c4" 0x54 cache).1).bytes =
        "1.4a".toUTF8.toList := by
  intro bytes bus cache
  have delivered : Delivers bus "i2c4" 0x54 bytes :=
    delivers_iff_stored.mpr ⟨by decide, ⟨1, rfl⟩, nofun, _, rfl, by decide, rfl⟩
  have accepted : Accepted bytes := ⟨by decide, Or.inr (by decide +kernel)⟩
  obtain ⟨text, -⟩ := identified_or_legacy bus "i2c4" 0x54 cache
  refine ⟨delivered, accepted, ((text bytes ⟨delivered, accepted⟩).eq
    (TextField.holds_trim _)).trans ?_⟩
  decide +kernel

end Carrier

end BoardIdentity
