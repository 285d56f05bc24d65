import Solvency.Arithmetic.Checked
import Solvency.Arithmetic.Factor
import Solvency.Arithmetic.Fixed
import Solvency.Assessment.Basic
import Solvency.Assessment.Sweep
import Solvency.Binary64.Basic
import Solvency.Binary64.Shortest
import Solvency.Binary64.Text
import Solvency.CommandLine.Arguments
import Solvency.CommandLine.Run
import Solvency.CommandLine.Threshold
import Solvency.Datum.Amount
import Solvency.Datum.Integer
import Solvency.Datum.Key
import Solvency.Datum.Member
import Solvency.Document.Basic
import Solvency.Document.Encoding
import Solvency.Document.Literal
import Solvency.Document.Location
import Solvency.Document.Moment
import Solvency.Document.Nesting
import Solvency.Document.Pairs
import Solvency.Document.Screen
import Solvency.Exposure.Borrow
import Solvency.Exposure.Perpetual
import Solvency.Exposure.RestingOrder
import Solvency.Fault
import Solvency.File.Directory
import Solvency.File.Path
import Solvency.Host
import Solvency.Json.Token
import Solvency.Json.Value
import Solvency.Log
import Solvency.Main
import Solvency.Margin.Check
import Solvency.Margin.Fraction
import Solvency.Margin.Seizure
import Solvency.Numeral
import Solvency.PriceTable
import Solvency.Settings.Basic
import Solvency.Settings.Environment
import Solvency.Settings.Load
import Solvency.Settings.Overlay
import Solvency.Snapshot.Basic
import Solvency.Snapshot.Decode
import Solvency.Snapshot.Encode
import Solvency.Snapshot.Load
import Solvency.Submission
import Solvency.Text.Basic
import Solvency.Text.Blank
import Solvency.Text.DecimalDigit
import Solvency.Text.Printable
import Solvency.Text.Quoted
import Solvency.Validity.Check
import Solvency.Validity.Invariant
import Solvency.Valuation.Balance
import Solvency.Width
import Solvency.Yaml.Cursor
import Solvency.Yaml.Node
import Solvency.Yaml.Reader
import Solvency.Yaml.Resolution
import Solvency.Yaml.Scalar
import Solvency.Yaml.Token
import Solvency.Proofs.Checked
import Solvency.Proofs.Exact
import Solvency.Proofs.Slots
import Solvency.Proofs.Perpetual
import Solvency.Proofs.Borrow
import Solvency.Proofs.Fraction
import Solvency.Proofs.Accepted
import Solvency.Proofs.Levels
import Solvency.Proofs.SeizureSize
import Solvency.Proofs.Seizure
import Solvency.Proofs.Endings
import Solvency.Proofs.Overflow
import Solvency.Proofs.PerpetualFaults
import Solvency.Proofs.SlotFaults
import Solvency.Proofs.AssessmentFaults
import Solvency.Proofs.Unitless
import Solvency.Proofs.Containment
import Solvency.Proofs.SeparateAssessments
import Solvency.Proofs.Collateral
import Solvency.Proofs.SlotOrder
import Solvency.Proofs.Comparison
import Solvency.Proofs.Harshness
import Solvency.Proofs.Improvement
import Solvency.Proofs.AmountText
import Solvency.Proofs.KeyText
import Solvency.Proofs.KeyOrder
import Solvency.Proofs.PriceOrder
import Solvency.Proofs.PriceLookup
import Solvency.Proofs.ValidatedFaults
import Solvency.Proofs.Reading
import Solvency.Proofs.Nesting
import Solvency.Proofs.Screening
import Solvency.Proofs.Roundtrip
import Solvency.Proofs.Canonical
import Solvency.Proofs.AccountWorth
import Solvency.Proofs.ExposureBounds
import Solvency.Proofs.CollateralBounds
import Solvency.Proofs.RestingOrders
import Solvency.Proofs.Reads
import Solvency.Proofs.IdleSlots
import Solvency.Proofs.OpenPositions
import Solvency.Proofs.Encoding
import Solvency.Proofs.Reporting
import Solvency.Proofs.Loading
import Solvency.Proofs.CommandRun
import Solvency.Proofs.CollateralShift
import Solvency.Proofs.WithdrawnOrders
import Solvency.Proofs.FactorChoices
import Solvency.Proofs.CancelCheck
import Solvency.Proofs.BorrowFactors
import Solvency.Proofs.LargestOrder
import Solvency.Proofs.ExactReading
import Solvency.Proofs.Legibility
import Solvency.Proofs.FaithfulEncoding
import Solvency.Proofs.Attempts
import Solvency.Proofs.IntegerText
import Solvency.Proofs.EnvironmentOverlay
import Solvency.Proofs.SettingSources
import Solvency.Proofs.StrictOverlay
import Solvency.Proofs.Representation
import Solvency.Proofs.SharedAccounts
import Solvency.Proofs.WeightedSums
import Solvency.Proofs.ShortestAmount
import Solvency.Proofs.FirstOffender
import Solvency.Proofs.DistinctKeys
import Solvency.Proofs.AccountLabels
