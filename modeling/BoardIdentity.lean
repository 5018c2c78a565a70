import BoardIdentity.Config.Generated
import BoardIdentity.Proofs.Bytes.RecordLayouts
import BoardIdentity.Proofs.Dram.OverlaidTiming
import BoardIdentity.Proofs.Dram.Provisioning
import BoardIdentity.Proofs.Dram.ReferenceMerge
import BoardIdentity.Proofs.Dram.RowReads
import BoardIdentity.Proofs.Dram.SortedMerge
import BoardIdentity.Proofs.Dram.StoppedTuning
import BoardIdentity.Proofs.Dram.TableRuns
import BoardIdentity.Proofs.Eeprom.Reads
import BoardIdentity.Proofs.I2c.ImageLookup
import BoardIdentity.Proofs.I2c.RecordedBus
import BoardIdentity.Proofs.I2c.SteadyBus
import BoardIdentity.Proofs.Trace.Grouping
import BoardIdentity.Session
import BoardIdentity.Trace.Payload
import BoardIdentity.Trace.Ring
import BoardIdentity.Proofs.Eeprom.Exchanges
import BoardIdentity.Proofs.Dram.RowScans
import BoardIdentity.Proofs.Dram.TuningReads
import BoardIdentity.Proofs.Dram.TuningFrame
import BoardIdentity.Proofs.Dram.UnreadableRows
import BoardIdentity.Proofs.Carrier.Identification
import BoardIdentity.Proofs.Checksum.Bursts
import BoardIdentity.Proofs.Carrier.Corruption
import BoardIdentity.Proofs.Dram.RepeatedMerge
import BoardIdentity.Proofs.Dram.RepeatedTuning
import BoardIdentity.Proofs.I2c.BrokenBytes
import BoardIdentity.Proofs.I2c.BusHistories
import BoardIdentity.Proofs.I2c.ProbedReads
import BoardIdentity.Proofs.Dram.GreedyMerge
import BoardIdentity.Proofs.Trace.AnyRing
import BoardIdentity.Proofs.Som.Trust
import BoardIdentity.Proofs.Source.Literals
import BoardIdentity.Proofs.Source.Tokens
import BoardIdentity.Proofs.Config.GeneratedConstant
import BoardIdentity.Proofs.Dram.MissingRegisters
import BoardIdentity.Proofs.I2c.Bookkeeping
import BoardIdentity.Proofs.Som.Report
import BoardIdentity.Proofs.Dram.PassSteps
import BoardIdentity.Proofs.Text.EscapedBytes
import BoardIdentity.Proofs.Eeprom.CallSequences
import BoardIdentity.Proofs.Bytes.FieldTables
import BoardIdentity.Proofs.Eeprom.SplitReads
import BoardIdentity.Proofs.Bytes.DocumentedLayouts
import BoardIdentity.Proofs.Toml.DistinctKeys
import BoardIdentity.Proofs.Config.Overlay
import BoardIdentity.Proofs.Config.BuildStep
import BoardIdentity.Proofs.Dram.TableAccess
import BoardIdentity.Proofs.Trace.SlotTurns
import BoardIdentity.Proofs.Dram.RowBounds
import BoardIdentity.Proofs.Dram.TuningInWords
