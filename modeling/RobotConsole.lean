import RobotConsole.Binary.Arithmetic
import RobotConsole.Binary.Basic
import RobotConsole.Binary.Circle
import RobotConsole.Binary.Numeral
import RobotConsole.Binary.Shortest
import RobotConsole.CommandLine.Grammar
import RobotConsole.CommandLine.Help
import RobotConsole.CommandLine.Reading
import RobotConsole.CommandLine.Similarity
import RobotConsole.CommandLine.Usage
import RobotConsole.Console.Grammar
import RobotConsole.Console.LogFilter
import RobotConsole.Console.Task
import RobotConsole.Files
import RobotConsole.Json.Basic
import RobotConsole.Json.Reader
import RobotConsole.Json.Value
import RobotConsole.Live.Frames
import RobotConsole.Main
import RobotConsole.Memory
import RobotConsole.Pattern.Cursor
import RobotConsole.Pattern.Escape
import RobotConsole.Pattern.Fault
import RobotConsole.Pattern.Meaning
import RobotConsole.Pattern.Reader
import RobotConsole.Power
import RobotConsole.Proofs.Binary.Order
import RobotConsole.Proofs.Binary.Rounding
import RobotConsole.Proofs.Binary.Whole
import RobotConsole.Proofs.CommandLine.Layout
import RobotConsole.Proofs.Json.Number
import RobotConsole.Proofs.Json.Record
import RobotConsole.Proofs.Json.RoundTrip
import RobotConsole.Proofs.Json.Written
import RobotConsole.Proofs.Robot.Primitive
import RobotConsole.Proofs.Session.Completion
import RobotConsole.Proofs.Session.Display
import RobotConsole.Proofs.Session.Failing
import RobotConsole.Proofs.Session.Reading
import RobotConsole.Proofs.Session.Threads
import RobotConsole.Proofs.Shell.Safety
import RobotConsole.Proofs.Status.Window
import RobotConsole.Proofs.Text.Words
import RobotConsole.Proofs.Trail.Carry
import RobotConsole.Proofs.Trail.History
import RobotConsole.Proofs.Trail.Run
import RobotConsole.Proofs.Trail.Streak
import RobotConsole.Random.Draw
import RobotConsole.Random.WordStream
import RobotConsole.Restart.Builtin
import RobotConsole.Restart.Builtin.Launch
import RobotConsole.Restart.Builtin.Options
import RobotConsole.Restart.Builtin.Signals
import RobotConsole.Restart.Builtin.Variables
import RobotConsole.Restart.Command
import RobotConsole.Restart.Condition
import RobotConsole.Restart.ExitStatus
import RobotConsole.Restart.Expansion
import RobotConsole.Restart.Grammar
import RobotConsole.Restart.Program
import RobotConsole.Restart.Reader
import RobotConsole.Restart.Run
import RobotConsole.Restart.Script
import RobotConsole.Restart.Signal
import RobotConsole.Restart.State
import RobotConsole.Restart.Sum
import RobotConsole.Restart.Wildcard
import RobotConsole.Restart.Writing
import RobotConsole.Robot.Datagram
import RobotConsole.Robot.Direction
import RobotConsole.Robot.Interface
import RobotConsole.Robot.Listener
import RobotConsole.Robot.Message
import RobotConsole.Robot.Radio
import RobotConsole.Robot.Socket
import RobotConsole.Scene.Basic
import RobotConsole.Scene.Color
import RobotConsole.Scene.Field
import RobotConsole.Scene.Scalar
import RobotConsole.Scene.TrailLayer
import RobotConsole.Session.Basic
import RobotConsole.Session.Notice
import RobotConsole.Session.Surroundings
import RobotConsole.Settings.Basic
import RobotConsole.Settings.Layout
import RobotConsole.Shell.Command
import RobotConsole.Shell.Outcome
import RobotConsole.Simulation.Nature
import RobotConsole.Simulation.Team
import RobotConsole.Snapshot.Buffer
import RobotConsole.Snapshot.Interleaving
import RobotConsole.Status.Board
import RobotConsole.Status.LossTracker
import RobotConsole.Store.Basic
import RobotConsole.Store.File
import RobotConsole.Table.Box
import RobotConsole.Text.Alphanumeric
import RobotConsole.Text.Blank
import RobotConsole.Text.CharRange
import RobotConsole.Text.ControlSequence
import RobotConsole.Text.Hidden
import RobotConsole.Text.Integer
import RobotConsole.Text.Lines
import RobotConsole.Text.LowerCase
import RobotConsole.Text.Utf8
import RobotConsole.Text.Visible
import RobotConsole.Time
import RobotConsole.Toml.Basic
import RobotConsole.Toml.CalendarTime
import RobotConsole.Toml.Document
import RobotConsole.Toml.Number
import RobotConsole.Toml.Printer
import RobotConsole.Toml.Quoted
import RobotConsole.Toml.Reader
import RobotConsole.Toml.Section
import RobotConsole.Trail.Cycle
import RobotConsole.Trail.GraphicsSet
import RobotConsole.Trail.History
import RobotConsole.Window.Drawing
import RobotConsole.Window.FrameRate
import RobotConsole.Window.Loop
import RobotConsole.Proofs.CommandLine.Option
import RobotConsole.Proofs.CommandLine.Places
import RobotConsole.Proofs.CommandLine.Request
import RobotConsole.Proofs.Shell.Grammar
import RobotConsole.Proofs.Snapshot.Conservation
import RobotConsole.Proofs.Snapshot.Newest
import RobotConsole.Proofs.Status.Board
import RobotConsole.Proofs.Robot.Datagram
import RobotConsole.Proofs.Json.Values
import RobotConsole.Proofs.Robot.Accepted
import RobotConsole.Proofs.Scene.Layer
import RobotConsole.Proofs.Snapshot.Calls
import RobotConsole.Proofs.Status.Outcome
import RobotConsole.Proofs.Trail.Ends
import RobotConsole.Proofs.Window.Drawing
import RobotConsole.Proofs.Window.Run
import RobotConsole.Proofs.Trail.Shortcut
import RobotConsole.Proofs.Shell.Handling
import RobotConsole.Proofs.Table.ReadBack
import RobotConsole.Proofs.Store.Listing
import RobotConsole.Proofs.Snapshot.Missed
import RobotConsole.Proofs.Binary.Monotone
import RobotConsole.Proofs.Random.Range
import RobotConsole.Proofs.Simulation.Roster
import RobotConsole.Proofs.Simulation.Field
import RobotConsole.Proofs.Live.Call
import RobotConsole.Proofs.Live.Run
import RobotConsole.Proofs.Live.Behaviour
import RobotConsole.Proofs.Robot.Listener
import RobotConsole.Proofs.Snapshot.Serial
import RobotConsole.Proofs.Trail.Resizing
import RobotConsole.Proofs.Json.Legible
import RobotConsole.Proofs.Json.Fields
import RobotConsole.Proofs.Json.Order
import RobotConsole.Proofs.Json.Shape
import RobotConsole.Proofs.Robot.Members
import RobotConsole.Proofs.Robot.Tagged
import RobotConsole.Proofs.Text.Spelling
import RobotConsole.Proofs.Robot.Direction
import RobotConsole.Proofs.Scene.Fit
import RobotConsole.Proofs.Window.FrameRate
import RobotConsole.Proofs.Toml.Place
import RobotConsole.Proofs.Toml.Distinct
import RobotConsole.Proofs.Toml.Times
import RobotConsole.Proofs.Settings.Record
import RobotConsole.Proofs.Settings.Reading
import RobotConsole.Proofs.Latest
