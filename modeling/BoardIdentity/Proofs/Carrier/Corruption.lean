import BoardIdentity.Carrier.Revision
import BoardIdentity.Proofs.Bytes.RecordLayouts
import BoardIdentity.Proofs.Carrier.Identification
import BoardIdentity.Proofs.Checksum.Bursts

/-!
# Corrupted carrier records

A record with a checksum that was accepted is not accepted any more once a burst has changed it,
be it in the bytes that the checksum covers or in the checksum (`refused_of_burst`).  The one way
out is the version: a record that a burst has made one of version 1 has no checksum.
-/

namespace BoardIdentity.Carrier

namespace Record

variable {record other : Record}

theorem eq_of_toBytes_eq (same : record.toBytes.toList = other.toBytes.toList) :
    record = other := by
  rw [← ofBytes_toBytes record, ← ofBytes_toBytes other, Vector.toList_inj.mp same]

theorem take_toBytes (record : Record) :
    record.toBytes.toList.take 19 = record.covered.toList := by
  rw [toList_toBytes, List.take_left' Vector.length_toList]

theorem drop_toBytes (record : Record) :
    record.toBytes.toList.drop 19 = (Endian.big32Bytes record.crc).toList := by
  rw [toList_toBytes, List.drop_left' Vector.length_toList]

theorem crc_eq_iff :
    record.crc = other.crc ↔ record.toBytes.toList.drop 19 = other.toBytes.toList.drop 19 := by
  rw [drop_toBytes, drop_toBytes, Vector.toList_inj]
  refine ⟨congrArg _, fun same => ?_⟩
  rw [← Endian.big32_big32Bytes record.crc, same, Endian.big32_big32Bytes]

/-- What the checksum covers and the checksum make the record. -/
theorem eq_of_covered_eq_of_crc_eq (covered : record.covered.toList = other.covered.toList)
    (crc : record.crc = other.crc) : record = other := by
  refine eq_of_toBytes_eq ?_
  rw [toList_toBytes, toList_toBytes, covered, crc]

/-- Two records with proper checksums are not a burst away from each other. -/
theorem eq_of_agreeOutside (proper : record.crc = record.properCrc)
    (properToo : other.crc = other.properCrc)
    (agree : (∃ start, start + 4 ≤ 19 ∧
        Crc32.AgreeOutside start 4 other.toBytes.toList record.toBytes.toList) ∨
      Crc32.AgreeOutside 19 4 other.toBytes.toList record.toBytes.toList) : other = record := by
  rcases agree with ⟨start, inside, agree⟩ | agree
  · have crc : other.crc = record.crc := by
      refine crc_eq_iff.mpr (List.ext_getElem? fun i => ?_)
      rw [List.getElem?_drop, List.getElem?_drop]
      exact agree _ (Or.inr (by omega))
    have checksums : other.properCrc = record.properCrc := by rw [← properToo, crc, proper]
    have agreeCovered := agree.take 19
    rw [take_toBytes, take_toBytes] at agreeCovered
    exact eq_of_covered_eq_of_crc_eq
      (agreeCovered.eq_of_checksum_eq (by simp) (Nat.le_refl 4) checksums) crc
  · have covered := agree.front_eq
    rw [take_toBytes, take_toBytes] at covered
    refine eq_of_covered_eq_of_crc_eq covered ?_
    rw [properToo, proper, properCrc, properCrc, covered]

end Record

/-- **A burst does not go unnoticed.**  A record that comes with its checksum and is accepted,
changed within four bytes in a row that the checksum covers, or within those of the checksum, is
refused and makes a legacy board, unless it is now of version 1. -/
theorem refused_of_burst {record other : Record} (recent : 2 ≤ record.version)
    (accepted : record.verify = .ok ()) (changed : other ≠ record)
    (burst : (∃ start, start + 4 ≤ 19 ∧
        Crc32.AgreeOutside start 4 other.toBytes.toList record.toBytes.toList) ∨
      Crc32.AgreeOutside 19 4 other.toBytes.toList record.toBytes.toList)
    (checked : other.version ≠ 1) :
    (∃ defect, other.verify = .error defect) ∧ Revision.ofRecord other = Revision.legacy := by
  have checkedToo : record.version ≠ 1 := fun unchecked => absurd (unchecked ▸ recent) (by decide)
  have proper := ((Record.verify_eq_ok_iff.mp accepted).2.resolve_left checkedToo).2
  have refused : other.verify ≠ .ok () := fun acceptedToo =>
    changed (Record.eq_of_agreeOutside proper
      ((Record.verify_eq_ok_iff.mp acceptedToo).2.resolve_left checked).2 burst)
  rcases verdict : other.verify with defect | ⟨⟩
  · refine ⟨⟨defect, rfl⟩, ?_⟩
    rw [Revision.ofRecord, Record.isAccepted, verdict]
    rfl
  · exact absurd verdict refused

/-- The last two letters of the text `1.4a` have changed places with the zeros behind them. -/
theorem refused_of_burst_in_text :
    let bytes : Vector UInt8 23 :=
      #v[0x56, 0x43, 2, 0x31, 0x2e, 0x34, 0x61, 0, 0, 0, 0, 0, 0, 0, 0, 0, 0, 0, 0,
        0xc6, 0x70, 0x12, 0x76]
    let corrupted : Vector UInt8 23 :=
      #v[0x56, 0x43, 2, 0x31, 0x2e, 0, 0, 0x34, 0x61, 0, 0, 0, 0, 0, 0, 0, 0, 0, 0,
        0xc6, 0x70, 0x12, 0x76]
    2 ≤ (Record.ofBytes bytes).version ∧ (Record.ofBytes bytes).verify = .ok () ∧
      Record.ofBytes corrupted ≠ Record.ofBytes bytes ∧
      Crc32.AgreeOutside 5 4 (Record.ofBytes corrupted).toBytes.toList
        (Record.ofBytes bytes).toBytes.toList ∧
      (Record.ofBytes corrupted).version ≠ 1 ∧
      (∃ defect, (Record.ofBytes corrupted).verify = .error defect) ∧
      Revision.ofRecord (Record.ofBytes corrupted) = Revision.legacy := by
  intro bytes corrupted
  have recent : 2 ≤ (Record.ofBytes bytes).version := by decide
  have checked : (Record.ofBytes corrupted).version ≠ 1 := by decide
  have accepted : (Record.ofBytes bytes).verify = .ok () := by decide +kernel +zetaReduce
  have changed : Record.ofBytes corrupted ≠ Record.ofBytes bytes := by
    decide +kernel +zetaReduce
  have burst : Crc32.AgreeOutside 5 4 (Record.ofBytes corrupted).toBytes.toList
      (Record.ofBytes bytes).toBytes.toList := by decide +kernel +zetaReduce
  exact ⟨recent, accepted, changed, burst, checked,
    refused_of_burst recent accepted changed (Or.inl ⟨5, by decide, burst⟩) checked⟩

end BoardIdentity.Carrier
