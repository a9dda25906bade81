import NodeHarness.BlockWait
import NodeHarness.CallSite
import NodeHarness.CommandLine
import NodeHarness.Fixture
import NodeHarness.Gate.Scene
import NodeHarness.Main
import NodeHarness.Proofs.AccountLookup
import NodeHarness.Proofs.AccountMembers
import NodeHarness.Proofs.AccountRoundTrip
import NodeHarness.Proofs.Acts
import NodeHarness.Proofs.Backends
import NodeHarness.Proofs.DecimalText
import NodeHarness.Proofs.DoubleRange
import NodeHarness.Proofs.DoubleRoundTrip
import NodeHarness.Proofs.Effects
import NodeHarness.Proofs.Envelope
import NodeHarness.Proofs.Erasure
import NodeHarness.Proofs.FailFlags
import NodeHarness.Proofs.FailureEvent
import NodeHarness.Proofs.FailureReach
import NodeHarness.Proofs.GateSafety
import NodeHarness.Proofs.Independence
import NodeHarness.Proofs.Inheritance
import NodeHarness.Proofs.IntegerText
import NodeHarness.Proofs.JsonRoundTrip
import NodeHarness.Proofs.LeftmostHash
import NodeHarness.Proofs.LogFrame
import NodeHarness.Proofs.NumberRoundTrip
import NodeHarness.Proofs.NumberSpelling
import NodeHarness.Proofs.Padding
import NodeHarness.Proofs.Points
import NodeHarness.Proofs.PrintedHash
import NodeHarness.Proofs.PrintedOutline
import NodeHarness.Proofs.PrinterVerdicts
import NodeHarness.Proofs.Propagation
import NodeHarness.Proofs.Reentrancy
import NodeHarness.Proofs.Rounding
import NodeHarness.Proofs.ScanExtension
import NodeHarness.Proofs.ShortestDigits
import NodeHarness.Proofs.Silence
import NodeHarness.Proofs.SpelledNumbers
import NodeHarness.Proofs.StatusQueries
import NodeHarness.Proofs.Stops
import NodeHarness.Proofs.TextRoundTrip
import NodeHarness.Proofs.Utf8RoundTrip
import NodeHarness.Proofs.Verdicts
import NodeHarness.Proofs.Waiting
import NodeHarness.Proofs.WholeOutline
import NodeHarness.Proofs.Wiring
import NodeHarness.Script
import NodeHarness.Proofs.BalancesRoundTrip
import NodeHarness.Proofs.FieldHistory
import NodeHarness.Proofs.FieldMerge
import NodeHarness.Proofs.MemberOrder
import NodeHarness.Proofs.PrintedFields
import NodeHarness.Proofs.CommandWords
import NodeHarness.Proofs.Endpoints
import NodeHarness.Proofs.Installation
import NodeHarness.Proofs.SourcePaths
