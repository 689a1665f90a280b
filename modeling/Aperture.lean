import Aperture.Angle.Sexagesimal
import Aperture.Baseline
import Aperture.BaselineSet
import Aperture.Binary64
import Aperture.Call
import Aperture.Codec.Basic
import Aperture.Codec.Bytes
import Aperture.Codec.Hex
import Aperture.Codec.Raw
import Aperture.Codec.Samples
import Aperture.Combinations
import Aperture.Constant
import Aperture.Context
import Aperture.Cube
import Aperture.Cube.Arithmetic
import Aperture.Decimal.Layout
import Aperture.Decimal.Power
import Aperture.Decimal.Reader
import Aperture.Decimal.Rounded
import Aperture.Decimal.Shortest
import Aperture.Extent
import Aperture.Failure
import Aperture.Files.Directory
import Aperture.Files.Path
import Aperture.Fourier.Arrangement
import Aperture.Fourier.Complex
import Aperture.Fourier.Cyclic
import Aperture.Fourier.Filter
import Aperture.Fourier.Line
import Aperture.Fourier.Odd
import Aperture.Fourier.Short
import Aperture.Fourier.Split
import Aperture.Fourier.Transform
import Aperture.Fourier.Turn
import Aperture.Geometry.Earth
import Aperture.Geometry.Group
import Aperture.Geometry.Horizontal
import Aperture.Geometry.Projection
import Aperture.Geometry.Uv
import Aperture.Grid.Convolution
import Aperture.Grid.Index
import Aperture.Grid.Shift
import Aperture.Grid.Statistics
import Aperture.Imaging.Accumulator
import Aperture.Imaging.Plan
import Aperture.Imaging.Plot
import Aperture.Imaging.Slots
import Aperture.Imaging.Stride
import Aperture.Imaging.Worker
import Aperture.Location
import Aperture.Network.Basic
import Aperture.Network.View
import Aperture.Registry
import Aperture.Roster
import Aperture.Roster.Index
import Aperture.Scalar
import Aperture.Session.Basic
import Aperture.Session.Request
import Aperture.Station
import Aperture.Target
import Aperture.Text.Blank
import Aperture.Text.Digit
import Aperture.Text.Plain
import Aperture.Text.Quoted
import Aperture.Time.Calendar
import Aperture.Time.Epoch
import Aperture.Time.Sidereal
import Aperture.Time.Timestamp
import Aperture.Vec3
import Aperture.Proofs.Walk.Entries
import Aperture.Proofs.Walk.Leaps
import Aperture.Proofs.Walk.Coverage
import Aperture.Proofs.Plot.Crew
import Aperture.Proofs.Plot.Schedule
import Aperture.Proofs.Combinations
import Aperture.Proofs.Roster.Indexed
import Aperture.Proofs.Roster.Edits
import Aperture.Proofs.Network.Groups
import Aperture.Proofs.Network.Reachable
import Aperture.Proofs.Network.AllGroups
import Aperture.Proofs.Network.Names
import Aperture.Proofs.Network.Current
import Aperture.Proofs.Codec.Words
import Aperture.Proofs.Codec.Payload
import Aperture.Proofs.Cube.Loops
import Aperture.Proofs.Cube.Faults
import Aperture.Proofs.Call
import Aperture.Proofs.Session.Sight
import Aperture.Proofs.Session.Requests
import Aperture.Proofs.Session.Failures
import Aperture.Proofs.Exact.Scalar
import Aperture.Proofs.Plot.Windows
import Aperture.Proofs.Plot.Means
import Aperture.Proofs.Plot.Reference
import Aperture.Proofs.Plot.Interleaved
import Aperture.Proofs.Plot.Covered
import Aperture.Proofs.Plot.Slots
import Aperture.Proofs.Plot.History
import Aperture.Proofs.Plot.Frames
import Aperture.Proofs.Session.Local
import Aperture.Proofs.Session.Contexts
import Aperture.Proofs.Walk.Work
import Aperture.Proofs.Walk.Interrupts
import Aperture.Proofs.Plot.Interrupts
import Aperture.Proofs.Geometry.Additive
import Aperture.Proofs.Geometry.Delays
import Aperture.Proofs.Exact.Hours
import Aperture.Proofs.Binary64.Remainder
import Aperture.Proofs.Geometry.HourAngles
import Aperture.Proofs.Exact.Circle
import Aperture.Proofs.Geometry.Horizon
import Aperture.Proofs.Geometry.Pointing
import Aperture.Proofs.Combinations.Order
import Aperture.Proofs.Network.Formed
import Aperture.Proofs.Network.Locks
import Aperture.Proofs.Session.Effects
import Aperture.Proofs.Session.Locks
import Aperture.Proofs.Session.Models
import Aperture.Proofs.Session.Names
import Aperture.Proofs.Grid.Positions
import Aperture.Proofs.Grid.Rotation
import Aperture.Proofs.Grid.Padding
import Aperture.Proofs.Grid.Range
import Aperture.Proofs.Cube.Difference
import Aperture.Proofs.Fourier.Waves
import Aperture.Proofs.Fourier.Axes
import Aperture.Proofs.Fourier.Inversion
import Aperture.Proofs.Fourier.Bands
import Aperture.Proofs.Network.Creation
import Aperture.Proofs.Geometry.Cells
import Aperture.Proofs.Plot.Updates
import Aperture.Proofs.Network.Settings
import Aperture.Proofs.Angle.Format
import Aperture.Proofs.Codec.Samples
import Aperture.Proofs.Session.Recordings
import Aperture.Proofs.Grid.Strides
import Aperture.Proofs.Time.Writing
import Aperture.Proofs.Angle.Signs
