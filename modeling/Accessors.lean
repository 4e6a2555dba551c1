import Accessors.Builtin.Find
import Accessors.Builtin.Sequence
import Accessors.Builtin.Text
import Accessors.Calendar.Day
import Accessors.Calendar.Moment
import Accessors.Calendar.Reading
import Accessors.Calendar.Reckoning
import Accessors.Calendar.Written
import Accessors.Channel
import Accessors.Coercion
import Accessors.Config
import Accessors.Config.Reading
import Accessors.Construct
import Accessors.Copy
import Accessors.DateField
import Accessors.Engine.Basic
import Accessors.Engine.Depth
import Accessors.Engine.Evaluate
import Accessors.Engine.Interpret
import Accessors.Engine.Invoke
import Accessors.Engine.Serialize
import Accessors.EntityType
import Accessors.Equality
import Accessors.Error
import Accessors.Ghost
import Accessors.Inspect
import Accessors.Instruction
import Accessors.Json
import Accessors.Key
import Accessors.Logging
import Accessors.NativeType
import Accessors.Number.Binary
import Accessors.Number.Decimal
import Accessors.Number.Digits
import Accessors.Number.Notation
import Accessors.Number.Reading
import Accessors.Number.Rounding
import Accessors.Operator
import Accessors.Operator.Apply
import Accessors.Proofs.AlikeEquality
import Accessors.Proofs.Alteration
import Accessors.Proofs.AssigningForm
import Accessors.Proofs.BasicCell
import Accessors.Proofs.BlockedPath
import Accessors.Proofs.CamelCase
import Accessors.Proofs.CarriedParts
import Accessors.Proofs.CivilCalendar
import Accessors.Proofs.CollectionKeys
import Accessors.Proofs.Configuration
import Accessors.Proofs.Confinement
import Accessors.Proofs.Conversion
import Accessors.Proofs.Copies
import Accessors.Proofs.DateParts
import Accessors.Proofs.DateProperties
import Accessors.Proofs.DateText
import Accessors.Proofs.DeclaredMembers
import Accessors.Proofs.DeepCopy
import Accessors.Proofs.DefaultIsolation
import Accessors.Proofs.Dispatch
import Accessors.Proofs.DisplayRoundTrip
import Accessors.Proofs.DisplayedNumbers
import Accessors.Proofs.DistinctItems
import Accessors.Proofs.DoubleOrder
import Accessors.Proofs.Doubles
import Accessors.Proofs.EncodedSearch
import Accessors.Proofs.EntryAssignment
import Accessors.Proofs.EqualityLevels
import Accessors.Proofs.ExactIntegers
import Accessors.Proofs.ExtremeItems
import Accessors.Proofs.FailedCall
import Accessors.Proofs.FollowedLevels
import Accessors.Proofs.Forwarding
import Accessors.Proofs.Frame
import Accessors.Proofs.Grounded
import Accessors.Proofs.GuardedSteps
import Accessors.Proofs.Hearing
import Accessors.Proofs.JsonConversion
import Accessors.Proofs.KeyReading
import Accessors.Proofs.KeyedLens
import Accessors.Proofs.KeyedPath
import Accessors.Proofs.LaterChanges
import Accessors.Proofs.Library
import Accessors.Proofs.Lockstep
import Accessors.Proofs.Making
import Accessors.Proofs.Numerals
import Accessors.Proofs.NumericKeys
import Accessors.Proofs.Operations
import Accessors.Proofs.OperatorFold
import Accessors.Proofs.OptionRules
import Accessors.Proofs.Parent
import Accessors.Proofs.Paths
import Accessors.Proofs.PureSerialization
import Accessors.Proofs.ReadOnlySlot
import Accessors.Proofs.Reconstruction
import Accessors.Proofs.Region
import Accessors.Proofs.Replacement
import Accessors.Proofs.Resolution
import Accessors.Proofs.RoundingIntervals
import Accessors.Proofs.SerializerModes
import Accessors.Proofs.Session
import Accessors.Proofs.Shape
import Accessors.Proofs.ShortestDecimals
import Accessors.Proofs.Slicing
import Accessors.Proofs.SplitJoin
import Accessors.Proofs.Stepwise
import Accessors.Proofs.StrictMode
import Accessors.Proofs.StructuralEquality
import Accessors.Proofs.SynthesizerCaches
import Accessors.Proofs.TextPositions
import Accessors.Proofs.TypeNames
import Accessors.Proofs.TypedSlot
import Accessors.Proofs.WholeNumbers
import Accessors.Property
import Accessors.Script
import Accessors.Synthesizer
import Accessors.Table
import Accessors.Text.Alphanumeric
import Accessors.Text.Blank
import Accessors.Text.Case
import Accessors.Text.CaseTable
import Accessors.Text.Quoted
import Accessors.Text.Ranges
import Accessors.Text.Search
import Accessors.Utility
import Accessors.Value
import Accessors.World
