import BoardIdentity.Proofs.I2c.BrokenBytes
import BoardIdentity.Proofs.I2c.BusHistories

/-!
# Probes, and reads through their handles

A probe goes from a bus name to the controller of the name's first position, and a read goes from
the controller back to the name.  `probed_reads` puts the two together: which probes succeed, why
the others are refused, that handles are as different as what they were probed for, and that a
handle reads the first device of its bus name and address, whatever is done with the bus in between.
-/

namespace BoardIdentity.I2c

/-! ## First positions and first devices -/

/-- `position` is the first one that holds `name`. -/
structure FirstAt (names : List String) (name : String) (position : Nat) : Prop where
  held : names[position]? = some name
  earlier : ∀ before < position, names[before]? ≠ some name

theorem idxOf?_eq_some_iff {names : List String} {name : String} {position : Nat} :
    names.idxOf? name = some position ↔ FirstAt names name position := by
  rw [List.idxOf?, List.findIdx?_eq_some_iff_getElem]
  constructor
  · rintro ⟨inside, hit, unlike⟩
    refine ⟨by rw [List.getElem?_eq_getElem inside, eq_of_beq hit], fun before early => ?_⟩
    rw [List.getElem?_eq_getElem (Nat.lt_trans early inside)]
    simpa using unlike before early
  · rintro ⟨held, earlier⟩
    obtain ⟨inside, hit⟩ := List.getElem?_eq_some_iff.mp held
    refine ⟨inside, by simp [hit], fun before early => ?_⟩
    have unlike := earlier before early
    rw [List.getElem?_eq_getElem (Nat.lt_trans early inside)] at unlike
    simpa using unlike

/-- A name has one first position. -/
theorem FirstAt.unique {names : List String} {name : String} {first second : Nat}
    (one : FirstAt names name first) (other : FirstAt names name second) : first = second :=
  Option.some.inj ((idxOf?_eq_some_iff.mpr one).symm.trans (idxOf?_eq_some_iff.mpr other))

/-- A position holds one name. -/
theorem FirstAt.name_eq {names : List String} {name other : String} {position : Nat}
    (one : FirstAt names name position) (two : FirstAt names other position) : name = other :=
  Option.some.inj (one.held.symm.trans two.held)

namespace ImageBus

/-- `found` is the first device of the bus name and the address. -/
structure FirstDevice (bus : ImageBus) (name : String) (address : UInt8) (found : ImageDevice) :
    Prop where
  named : found.bus = name
  addressed : found.address = address
  first : ∃ before after, bus.devices = before ++ found :: after ∧
    ∀ earlier ∈ before, ¬ (earlier.bus = name ∧ earlier.address = address)

variable {bus : ImageBus} {name : String} {address : UInt8} {device : Device}

theorem first?_eq_some_iff {found : ImageDevice} :
    bus.first? name address = some found ↔ bus.FirstDevice name address found := by
  have hits (candidate : ImageDevice) :
      (candidate.bus == name && candidate.address == address) = true ↔
        candidate.bus = name ∧ candidate.address = address := by
    rw [Bool.and_eq_true, beq_iff_eq, beq_iff_eq]
  rw [first?, List.find?_eq_some_iff_append]
  simp only [Bool.not_eq_true', ← Bool.not_eq_true, hits]
  constructor
  · rintro ⟨⟨named, addressed⟩, first⟩
    exact ⟨named, addressed, first⟩
  · rintro ⟨named, addressed, first⟩
    exact ⟨⟨named, addressed⟩, first⟩

theorem isSome_first?_iff :
    (bus.first? name address).isSome ↔
      ∃ found ∈ bus.devices, found.bus = name ∧ found.address = address := by
  simp [first?, List.find?_isSome]

/-! ## Probes -/

/-- What it takes for a probe to answer with a handle. -/
structure Finds (bus : ImageBus) (name : String) (address : UInt8) (device : Device) : Prop where
  usable : 0x08 ≤ address.toNat ∧ address.toNat ≤ 0x7b
  controlled : FirstAt bus.names name device.controller.val
  addressed : device.address = address
  attached : ∃ found ∈ bus.devices, found.bus = name ∧ found.address = address

/-- Why a probe is refused: for the first that applies of a reserved address, an address of more
than seven bits, a name without a controller, and no device there. -/
inductive Refuses (bus : ImageBus) (name : String) (address : UInt8) : Fault → Prop
  | reserved (setAside : address.toNat ≤ 0x07 ∨ 0x7c ≤ address.toNat ∧ address.toNat ≤ 0x7f) :
      Refuses bus name address .reservedAddress
  | tooLarge (above : 0x80 ≤ address.toNat) : Refuses bus name address .badArgument
  | uncontrolled (usable : 0x08 ≤ address.toNat ∧ address.toNat ≤ 0x7b)
      (nowhere : ∀ position < 8, ¬ FirstAt bus.names name position) :
      Refuses bus name address .noSuchBus
  | unattached (usable : 0x08 ≤ address.toNat ∧ address.toNat ≤ 0x7b)
      (controlled : ∃ position < 8, FirstAt bus.names name position)
      (nobody : ¬ ∃ found ∈ bus.devices, found.bus = name ∧ found.address = address) :
      Refuses bus name address .noDevice

theorem resolve_eq_ok_iff_finds : bus.resolve name address = .ok device ↔
    bus.Finds name address device := by
  rw [resolve_eq_ok_iff, idxOf?_eq_some_iff, isSome_first?_iff]
  constructor
  · rintro ⟨usable, controlled, addressed, attached⟩
    exact ⟨usable, controlled, addressed, attached⟩
  · rintro ⟨usable, controlled, addressed, attached⟩
    exact ⟨usable, controlled, addressed, attached⟩

theorem checkAddress_of_reserved
    (setAside : address.toNat ≤ 0x07 ∨ 0x7c ≤ address.toNat ∧ address.toNat ≤ 0x7f) :
    checkAddress address = .error .reservedAddress := by
  rw [checkAddress, if_pos ((isReserved_iff address).mpr setAside)]

theorem checkAddress_of_large (above : 0x80 ≤ address.toNat) :
    checkAddress address = .error .badArgument := by
  have unreserved : ¬ isReserved address = true := by
    rw [isReserved_iff]
    omega
  have large : 0x7f < address := UInt8.lt_iff_toNat_lt.mpr above
  rw [checkAddress, if_neg unreserved, if_pos large]

theorem resolve_of_refuses {fault : Fault} (refused : bus.Refuses name address fault) :
    bus.resolve name address = .error fault := by
  unfold resolve
  cases refused with
  | reserved setAside => rw [checkAddress_of_reserved setAside]; rfl
  | tooLarge above => rw [checkAddress_of_large above]; rfl
  | uncontrolled usable nowhere =>
    have uncontrolled : (bus.names.idxOf? name).bind Controller.ofIndex? = none := by
      rw [Option.bind_eq_none_iff]
      intro position searched
      exact dif_neg fun early => nowhere position early (idxOf?_eq_some_iff.mp searched)
    rw [(checkAddress_eq_ok_iff address).mpr usable, uncontrolled]
    rfl
  | unattached usable controlled nobody =>
    obtain ⟨position, early, first⟩ := controlled
    let controller : Controller := ⟨position, early⟩
    have searched : bus.names.idxOf? name = some controller.val := idxOf?_eq_some_iff.mpr first
    have absent : ¬ (bus.device? { controller, address }).isSome := by
      rw [device?_eq_first? searched, isSome_first?_iff]
      exact nobody
    rw [(checkAddress_eq_ok_iff address).mpr usable, searched, Option.bind_some,
      ofIndex?_eq_some_iff.mpr rfl]
    exact if_neg absent

/-- Every probe answers with a handle or is refused. -/
theorem finds_or_refuses (bus : ImageBus) (name : String) (address : UInt8) :
    (∃ device, bus.Finds name address device) ∨ ∃ fault, bus.Refuses name address fault := by
  by_cases setAside : address.toNat ≤ 0x07 ∨ 0x7c ≤ address.toNat ∧ address.toNat ≤ 0x7f
  case pos => exact .inr ⟨_, .reserved setAside⟩
  by_cases above : 0x80 ≤ address.toNat
  case pos => exact .inr ⟨_, .tooLarge above⟩
  have usable : 0x08 ≤ address.toNat ∧ address.toNat ≤ 0x7b := by omega
  by_cases controlled : ∃ position < 8, FirstAt bus.names name position
  case neg => exact .inr ⟨_, .uncontrolled usable fun position early first =>
    controlled ⟨position, early, first⟩⟩
  by_cases attached : ∃ found ∈ bus.devices, found.bus = name ∧ found.address = address
  case neg => exact .inr ⟨_, .unattached usable controlled attached⟩
  obtain ⟨position, early, first⟩ := controlled
  exact .inl ⟨⟨⟨position, early⟩, address⟩, usable, first, rfl, attached⟩

theorem resolve_eq_error_iff_refuses {fault : Fault} :
    bus.resolve name address = .error fault ↔ bus.Refuses name address fault := by
  refine ⟨fun resolved => ?_, resolve_of_refuses⟩
  rcases bus.finds_or_refuses name address with ⟨device, finds⟩ | ⟨other, refused⟩
  · cases resolved.symm.trans (resolve_eq_ok_iff_finds.mpr finds)
  · cases resolved.symm.trans (resolve_of_refuses refused)
    exact refused

/-- Handles are as different as what they were probed for. -/
theorem Finds.device_eq_iff {other : ImageBus} {otherName : String} {otherAddress : UInt8}
    {otherDevice : Device} (names : other.names = bus.names)
    (one : bus.Finds name address device)
    (two : other.Finds otherName otherAddress otherDevice) :
    device = otherDevice ↔ name = otherName ∧ address = otherAddress := by
  have controlled := one.controlled
  have otherControlled := two.controlled
  rw [names] at otherControlled
  constructor
  · rintro rfl
    exact ⟨controlled.name_eq otherControlled, one.addressed.symm.trans two.addressed⟩
  · rintro ⟨rfl, rfl⟩
    obtain ⟨controller, _⟩ := device
    obtain ⟨otherController, _⟩ := otherDevice
    obtain rfl : controller = otherController := Fin.ext (controlled.unique otherControlled)
    cases one.addressed
    cases two.addressed
    rfl

/-- A name whose first position has no controller is not found under another controller. -/
theorem not_finds_of_late {position : Nat} (first : FirstAt bus.names name position)
    (late : 8 ≤ position) : ¬ bus.Finds name address device := by
  intro finds
  have early := device.controller.isLt
  rw [← first.unique finds.controlled] at early
  omega

/-! ## Reads through handles -/

variable {offset : UInt32} {length : Nat}

/-- A read that covers no broken byte delivers the image's own bytes, if it stays inside. -/
theorem readOver_of_uncovered {found : ImageDevice} (seen : bus.device? device = some found)
    (uncovered : ∀ broken, bus.broken = some broken → ¬ Covers offset length broken.offset)
    (fits : length < UInt32.size) (buffer : Vector UInt8 length) :
    let reading := readOver bus device offset buffer
    (offset.toNat + length ≤ found.image.length →
        reading.1 = .ok () ∧
          reading.2.1.toList = (found.image.drop offset.toNat).take length) ∧
      (found.image.length < offset.toNat + length →
        reading.1 = .error .badArgument ∧ reading.2.1 = buffer) := by
  intro reading
  obtain ⟨delivered, refused⟩ := fetch_of_not_touched seen fun broken breaks =>
    (broken.isTouched_eq_false_iff offset length).mpr (.inl (uncovered broken breaks))
  have read := readOver_eq bus device offset fits buffer
  constructor
  · intro inside
    obtain ⟨bytes, fetched, content⟩ := delivered inside
    rw [fetched] at read
    exact ⟨congrArg (·.1) read, (congrArg (·.2.1.toList) read).trans content⟩
  · intro outside
    rw [refused outside] at read
    exact ⟨congrArg (·.1) read, congrArg (·.2.1) read⟩

/-- **Probing and then reading.**  A probe answers with a handle exactly if the address may be used,
the first position of the name has a controller, which is then the handle's, and some device has the
name and the address; otherwise it is refused for the first of its reasons.  Handles are equal
exactly if name and address are, and a name that comes first at position 8 or later has none.
Whatever is done with the bus after a probe, a read through its handle that does not cover the byte
that is broken then delivers bytes of the first device of that name and address, and is refused with
`badArgument` if it leaves the image. -/
theorem probed_reads (bus : ImageBus) :
    (∀ name address device,
        (bus.probe name address).1 = .ok device ↔ bus.Finds name address device) ∧
      (∀ name address fault,
        (bus.probe name address).1 = .error fault ↔ bus.Refuses name address fault) ∧
      (∀ name address device otherName otherAddress otherDevice operations,
        (bus.probe name address).1 = .ok device →
        (((bus.probe name address).2.after operations).probe otherName otherAddress).1 =
          .ok otherDevice →
        (device = otherDevice ↔ name = otherName ∧ address = otherAddress)) ∧
      (∀ name position, FirstAt bus.names name position → 8 ≤ position →
        ∀ address device, (bus.probe name address).1 ≠ .ok device) ∧
      ∀ name address device, (bus.probe name address).1 = .ok device →
        ∃ found, bus.FirstDevice name address found ∧
          ∀ operations (offset : UInt32) (length : Nat) (buffer : Vector UInt8 length),
            let later := (bus.probe name address).2.after operations
            let reading := readOver later device offset buffer
            length < UInt32.size →
            (∀ broken, later.broken = some broken → ¬ Covers offset length broken.offset) →
            (offset.toNat + length ≤ found.image.length →
                reading.1 = .ok () ∧
                  reading.2.1.toList = (found.image.drop offset.toNat).take length) ∧
              (found.image.length < offset.toNat + length →
                reading.1 = .error .badArgument ∧ reading.2.1 = buffer) := by
  refine ⟨fun name address device => resolve_eq_ok_iff_finds,
    fun name address fault => resolve_eq_error_iff_refuses, ?_, ?_, ?_⟩
  · intro name address device otherName otherAddress otherDevice operations one two
    have finds : bus.Finds name address device := resolve_eq_ok_iff_finds.mp one
    have names : ((bus.probe name address).2.after operations).names = bus.names :=
      ((bus.probe name address).2.after_keeps operations).1
    exact finds.device_eq_iff names (resolve_eq_ok_iff_finds.mp two)
  · intro name position first late address device resolved
    exact not_finds_of_late first late (resolve_eq_ok_iff_finds.mp resolved)
  · intro name address device resolved
    have leads := device?_of_resolve resolved
    obtain ⟨found, first⟩ := Option.isSome_iff_exists.mp (resolve_eq_ok_iff.mp resolved).2.2.2
    refine ⟨found, first?_eq_some_iff.mp first, fun operations offset length buffer => ?_⟩
    intro later reading fits uncovered
    have seen : later.device? device = some found :=
      (device?_after _ operations device).trans (leads.trans first)
    exact readOver_of_uncovered seen uncovered fits buffer

/-- Nine names, of which one is there twice and the last has no controller, and two devices of one
name and address.  A handle still reads the first of them after its first byte was broken. -/
theorem probed_reads_of_two_devices :
    let bus : ImageBus :=
      { names := ["a", "b", "b", "c", "d", "e", "f", "g", "h"]
        devices := [{ bus := "h", address := 0x52, image := [7] },
          { bus := "b", address := 0x52, image := [1, 2, 3] },
          { bus := "b", address := 0x52, image := [9] }] }
    let device : Device := { controller := 1, address := 0x52 }
    let operations : List Operation :=
      [.breakByte 0 .busError, .read device 0 1, .emptyLog, .probe "h" 0x52]
    let later := (bus.probe "b" 0x52).2.after operations
    let inside := readOver later device 1 (Vector.replicate 2 0xa5)
    let outside := readOver later device 1 (Vector.replicate 3 0xa5)
    (bus.probe "b" 0x52).1 = .ok device ∧ 2 < UInt32.size ∧ 3 < UInt32.size ∧
      later.broken = some ⟨0, .busError⟩ ∧ FirstAt bus.names "h" 8 ∧
      inside.1 = .ok () ∧ inside.2.1.toList = [2, 3] ∧
      outside.1 = .error .badArgument ∧ outside.2.1 = .replicate 3 0xa5 ∧
      ∀ handle, (bus.probe "h" 0x52).1 ≠ .ok handle := by
  intro bus device operations later inside outside
  have probed : (bus.probe "b" 0x52).1 = .ok device := rfl
  have breaks : later.broken = some ⟨0, .busError⟩ := rfl
  have last : FirstAt bus.names "h" 8 := ⟨rfl, by decide⟩
  obtain ⟨-, -, -, late, reads⟩ := probed_reads bus
  obtain ⟨found, first, read⟩ := reads "b" 0x52 device probed
  obtain rfl := Option.some.inj (first?_eq_some_iff.mpr first)
  have uncovered (length : Nat) (broken : BrokenByte) (same : later.broken = some broken) :
      ¬ Covers 1 length broken.offset := by
    obtain rfl := Option.some.inj (breaks.symm.trans same)
    exact fun covered => absurd covered.1 (by decide)
  obtain ⟨result, bytes⟩ :=
    (read operations 1 2 (Vector.replicate 2 0xa5) (by decide) (uncovered 2)).1 (by decide)
  obtain ⟨fault, untouched⟩ :=
    (read operations 1 3 (Vector.replicate 3 0xa5) (by decide) (uncovered 3)).2 (by decide)
  exact ⟨probed, by decide, by decide, breaks, last, result, bytes, fault, untouched,
    late "h" 8 last (by decide) 0x52⟩

end ImageBus

end BoardIdentity.I2c
