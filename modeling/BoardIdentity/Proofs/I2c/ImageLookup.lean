import BoardIdentity.Proofs.I2c.SteadyBus

/-!
# Finding a device and reading its image

A probe succeeds exactly if the address may be used, the name's first position has a controller, and
some device has the name and the address (`resolve_eq_ok_iff`); the handle then leads to the first
such device (`device?_of_resolve`).  A read through it fails with the broken byte's fault if it
touches it, else with `badArgument` if it leaves the image, and else delivers the image's bytes
(`fetch_of_touched`, `fetch_of_not_touched`).

`ImageBus.Reaches` says when a probe comes to a given device.
-/

namespace BoardIdentity.I2c

theorem BrokenByte.isTouched_iff (broken : BrokenByte) (offset : UInt32) (length : Nat) :
    broken.isTouched offset length = true ↔ offset.toNat ≤ broken.offset.toNat ∧
      broken.offset.toNat < min (offset.toNat + length) (UInt32.size - 1) := by
  simp [isTouched, UInt32.le_iff_toNat_le]

namespace ImageBus

variable {bus : ImageBus} {name : String} {address : UInt8} {device : Device}

/-! ## Probes -/

/-- The first device with a bus name and an address. -/
def first? (bus : ImageBus) (name : String) (address : UInt8) : Option ImageDevice :=
  bus.devices.find? fun candidate => candidate.bus == name && candidate.address == address

/-- The first position of a name holds the name. -/
theorem getElem?_of_idxOf? {index : Nat} (searched : bus.names.idxOf? name = some index) :
    bus.names[index]? = some name := by
  obtain ⟨inside, hit, -⟩ := List.findIdx?_eq_some_iff_getElem.mp searched
  rw [List.getElem?_eq_getElem inside]
  exact congrArg some (by simpa using hit)

theorem device?_eq_first? {controller : Controller}
    (searched : bus.names.idxOf? name = some controller.val) (address : UInt8) :
    bus.device? { controller, address } = bus.first? name address := by
  rw [device?, getElem?_of_idxOf? searched]
  rfl

theorem ofIndex?_eq_some_iff {index : Nat} {controller : Controller} :
    Controller.ofIndex? index = some controller ↔ index = controller.val := by
  unfold Controller.ofIndex?
  split
  case isTrue inRange => exact ⟨fun same => by cases same; rfl, fun same => by subst same; rfl⟩
  case isFalse outside =>
    exact ⟨nofun, fun same => absurd (same ▸ controller.isLt) outside⟩

theorem resolve_eq_ok_iff :
    bus.resolve name address = .ok device ↔
      (0x08 ≤ address.toNat ∧ address.toNat ≤ 0x7b) ∧
        bus.names.idxOf? name = some device.controller.val ∧ device.address = address ∧
        (bus.first? name address).isSome := by
  rw [← checkAddress_eq_ok_iff]
  unfold resolve
  cases judged : checkAddress address with
  | error fault => simp [bind, Except.bind]
  | ok accepted => ?_
  simp only [bind, Except.bind]
  rcases controlled : (bus.names.idxOf? name).bind Controller.ofIndex? with _ | controller
  · refine ⟨nofun, ?_⟩
    rintro ⟨-, searched, -⟩
    rw [searched, Option.bind_some, ofIndex?_eq_some_iff.mpr rfl] at controlled
    cases controlled
  · obtain ⟨index, searched, numbered⟩ := Option.bind_eq_some_iff.mp controlled
    obtain rfl := ofIndex?_eq_some_iff.mp numbered
    simp only [device?_eq_first? searched]
    constructor
    · intro answered
      split at answered
      case isTrue present =>
        cases answered
        exact ⟨trivial, searched, rfl, present⟩
      case isFalse => cases answered
    · rintro ⟨-, same, rfl, present⟩
      rw [if_pos present]
      rw [searched] at same
      obtain rfl := Fin.ext (Option.some.inj same)
      rfl

/-- The handle of a probe leads to the first device of that name and address. -/
theorem device?_of_resolve (resolved : bus.resolve name address = .ok device) :
    bus.device? device = bus.first? name address := by
  obtain ⟨-, searched, same, -⟩ := resolve_eq_ok_iff.mp resolved
  rw [← same]
  exact device?_eq_first? searched device.address

/-! ## Reads -/

variable {offset : UInt32} {length : Nat}

theorem fetch_of_touched {broken : BrokenByte} (breaks : bus.broken = some broken)
    (touched : broken.isTouched offset length = true) :
    bus.fetch device offset length = .error broken.fault := by
  simp only [fetch, breaks, Option.filter_some, touched, if_true]

/-- A read that touches no broken byte delivers the image's own bytes, as far as it stays inside. -/
theorem fetch_of_not_touched {found : ImageDevice} (seen : bus.device? device = some found)
    (untouched : ∀ broken, bus.broken = some broken → broken.isTouched offset length = false) :
    (offset.toNat + length ≤ found.image.length →
        ∃ bytes, bus.fetch device offset length = .ok bytes ∧
          bytes.toList = (found.image.drop offset.toNat).take length) ∧
      (found.image.length < offset.toNat + length →
        bus.fetch device offset length = .error .badArgument) := by
  have none : bus.broken.filter (·.isTouched offset length) = none := by
    rw [Option.filter_eq_none_iff]
    intro broken breaks
    simp [untouched broken breaks]
  simp only [fetch, none, seen]
  constructor
  · intro inside
    exact ⟨_, dif_pos inside, rfl⟩
  · intro outside
    exact dif_neg (Nat.not_le.mpr outside)

/-- A read delivers bytes exactly if it touches no broken byte and stays within the image, and then
the image's own. -/
theorem fetch_eq_ok_iff {found : ImageDevice} {bytes : Vector UInt8 length}
    (seen : bus.device? device = some found) :
    bus.fetch device offset length = .ok bytes ↔
      (∀ broken, bus.broken = some broken → broken.isTouched offset length = false) ∧
        offset.toNat + length ≤ found.image.length ∧
        bytes.toList = (found.image.drop offset.toNat).take length := by
  constructor
  · intro fetched
    have untouched : ∀ broken, bus.broken = some broken →
        broken.isTouched offset length = false := by
      intro broken breaks
      refine Bool.eq_false_iff.mpr fun touched => ?_
      rw [fetch_of_touched breaks touched] at fetched
      cases fetched
    obtain ⟨delivered, refused⟩ := fetch_of_not_touched seen untouched
    rcases Nat.lt_or_ge found.image.length (offset.toNat + length) with outside | inside
    · cases fetched.symm.trans (refused outside)
    · obtain ⟨image, fetchedToo, content⟩ := delivered inside
      cases fetched.symm.trans fetchedToo
      exact ⟨untouched, inside, content⟩
  · rintro ⟨untouched, inside, content⟩
    obtain ⟨image, fetched, own⟩ := (fetch_of_not_touched seen untouched).1 inside
    rw [fetched, Vector.toList_inj.mp (own.trans content.symm)]

/-! ## Reaching a device -/

/-- A probe with the device's bus name and address comes to that device. -/
structure Reaches (bus : ImageBus) (found : ImageDevice) : Prop where
  named : found.bus ∈ bus.names.take 8
  sevenBits : found.address.toNat < 128
  unreserved : isReserved found.address = false
  attached : ∃ before after, bus.devices = before ++ found :: after ∧
    ∀ earlier ∈ before, ¬ (earlier.bus = found.bus ∧ earlier.address = found.address)

/-- The first eight bus names have a controller each. -/
theorem controller_of_mem_take (named : name ∈ bus.names.take 8) :
    ∃ controller : Controller, bus.names.idxOf? name = some controller.val := by
  obtain ⟨position, inside, same⟩ := List.mem_take_iff_getElem.mp named
  cases searched : bus.names.idxOf? name with
  | none => exact absurd (same ▸ List.getElem_mem _) (List.idxOf?_eq_none_iff.mp searched)
  | some index =>
    obtain ⟨within, -, unlike⟩ := List.findIdx?_eq_some_iff_getElem.mp searched
    have early : index < 8 := by
      refine Nat.not_le.mp fun late => ?_
      exact absurd same (by simpa using unlike position (by omega))
    exact ⟨⟨index, early⟩, rfl⟩

/-- A probe resolves to a handle whose device is the one that is reached. -/
theorem Reaches.resolve {found : ImageDevice} (reached : bus.Reaches found) :
    ∃ device, bus.resolve found.bus found.address = .ok device ∧
      bus.device? device = some found := by
  obtain ⟨controller, searched⟩ := controller_of_mem_take reached.named
  obtain ⟨before, after, attached, first⟩ := reached.attached
  have seen : bus.first? found.bus found.address = some found := by
    have passed : before.find? (fun candidate =>
        candidate.bus == found.bus && candidate.address == found.address) = none := by
      simpa using first
    simp [first?, attached, List.find?_append, passed]
  have above := reached.unreserved
  rw [← Bool.not_eq_true, isReserved_iff] at above
  have below := reached.sevenBits
  have resolved : bus.resolve found.bus found.address =
      .ok { controller, address := found.address } :=
    resolve_eq_ok_iff.mpr ⟨by omega, searched, rfl, by rw [seen]; rfl⟩
  exact ⟨_, resolved, (device?_of_resolve resolved).trans seen⟩

/-- Where no byte is broken, a read delivers the bytes that the image holds at its offset. -/
theorem fetch_eq_ok {found : ImageDevice} {bytes : Vector UInt8 length} (before after : List UInt8)
    (whole : bus.broken = none) (seen : bus.device? device = some found)
    (stored : found.image = before ++ (bytes.toList ++ after))
    (behind : before.length = offset.toNat) :
    bus.fetch device offset length = .ok bytes := by
  refine (fetch_eq_ok_iff seen).mpr ⟨?_, ?_, ?_⟩
  · intro broken breaks
    rw [whole] at breaks
    cases breaks
  · rw [stored, ← behind]
    simp
  · rw [stored, ← behind]
    simp

end ImageBus

end BoardIdentity.I2c
