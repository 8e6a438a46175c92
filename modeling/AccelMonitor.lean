import AccelMonitor.Benchmark.Execution
import AccelMonitor.Benchmark.Handle
import AccelMonitor.Benchmark.Job
import AccelMonitor.Benchmark.Models
import AccelMonitor.Benchmark.Options
import AccelMonitor.Benchmark.Pool
import AccelMonitor.Benchmark.Report
import AccelMonitor.Breakdown
import AccelMonitor.CommandLine.Arguments
import AccelMonitor.CommandLine.Reading
import AccelMonitor.Counts
import AccelMonitor.Device.Bridge
import AccelMonitor.Device.Preflight
import AccelMonitor.Device.Property
import AccelMonitor.Device.Simulated
import AccelMonitor.Device.Switches
import AccelMonitor.DeviceLog.Reader
import AccelMonitor.DeviceLog.Time
import AccelMonitor.Document
import AccelMonitor.Failure
import AccelMonitor.Framework
import AccelMonitor.Handoff.Poller
import AccelMonitor.Handoff.Queue
import AccelMonitor.KernelLog.Buckets
import AccelMonitor.KernelLog.Line
import AccelMonitor.KernelLog.Reader
import AccelMonitor.Main
import AccelMonitor.Monitor.Files
import AccelMonitor.Monitor.Loop
import AccelMonitor.Monitor.Program
import AccelMonitor.Monitor.Settings
import AccelMonitor.Names
import AccelMonitor.Number.Binary64
import AccelMonitor.Number.Powers
import AccelMonitor.Number.Reading
import AccelMonitor.Number.Rounding
import AccelMonitor.Number.Shortest
import AccelMonitor.Number.Written
import AccelMonitor.Offload
import AccelMonitor.Pattern.Basic
import AccelMonitor.Pattern.Table
import AccelMonitor.Probe
import AccelMonitor.Processor
import AccelMonitor.Session.Display
import AccelMonitor.Session.Export
import AccelMonitor.Session.State
import AccelMonitor.Shell.Output
import AccelMonitor.Shell.Recording
import AccelMonitor.Shell.Script
import AccelMonitor.Statistics
import AccelMonitor.Text.Blank
import AccelMonitor.Text.Decoding
import AccelMonitor.Text.Digit
import AccelMonitor.Text.Hidden
import AccelMonitor.Text.Pieces
import AccelMonitor.Text.Quoted
import AccelMonitor.Proofs.Text.Splitting
import AccelMonitor.Proofs.Number.Order
import AccelMonitor.Proofs.Number.Notation
import AccelMonitor.Proofs.KernelLog.Heading
import AccelMonitor.Proofs.KernelLog.Keyword
import AccelMonitor.Proofs.KernelLog.Shape
import AccelMonitor.Proofs.KernelLog.Delta
import AccelMonitor.Proofs.KernelLog.Reading
import AccelMonitor.Proofs.KernelLog.Watermark
import AccelMonitor.Proofs.KernelLog.Delivery
import AccelMonitor.Proofs.Breakdown.Tally
import AccelMonitor.Proofs.DeviceLog.Calendar
import AccelMonitor.Proofs.DeviceLog.Line
import AccelMonitor.Proofs.DeviceLog.Reading
import AccelMonitor.Proofs.DeviceLog.Delivery
import AccelMonitor.Proofs.Handoff.Order
import AccelMonitor.Proofs.Handoff.Safety
import AccelMonitor.Proofs.Session.Schedule
import AccelMonitor.Proofs.Session.Streams
import AccelMonitor.Proofs.Session.Isolation
import AccelMonitor.Proofs.Session.Consumption
import AccelMonitor.Proofs.Monitor.Folding
import AccelMonitor.Proofs.Number.Error
import AccelMonitor.Proofs.Offload.Samples
import AccelMonitor.Proofs.Offload.Cuts
import AccelMonitor.Proofs.Benchmark.ToolReport
import AccelMonitor.Proofs.Benchmark.Dialogue
import AccelMonitor.Proofs.Benchmark.Executions
import AccelMonitor.Proofs.Benchmark.Moves
import AccelMonitor.Proofs.Benchmark.Answers
import AccelMonitor.Proofs.Benchmark.Turns
import AccelMonitor.Proofs.Benchmark.Service
import AccelMonitor.Proofs.Device.Enabling
import AccelMonitor.Proofs.Device.Disabling
import AccelMonitor.Proofs.Session.Peaks
import AccelMonitor.Proofs.KernelLog.Repetition
import AccelMonitor.Proofs.Pattern.Choice
import AccelMonitor.Proofs.Offload.Fields
import AccelMonitor.Proofs.KernelLog.Driver
import AccelMonitor.Proofs.KernelLog.Request
import AccelMonitor.Proofs.KernelLog.Partition
import AccelMonitor.Proofs.KernelLog.Legibility
import AccelMonitor.Proofs.KernelLog.Atomicity
import AccelMonitor.Proofs.KernelLog.Counting
import AccelMonitor.Proofs.DeviceLog.Watermark
import AccelMonitor.Proofs.DeviceLog.Filing
import AccelMonitor.Proofs.Processor.Run
import AccelMonitor.Proofs.Benchmark.Sections
import AccelMonitor.Proofs.Benchmark.Course
import AccelMonitor.Proofs.Benchmark.Handout
import AccelMonitor.Proofs.Offload.Foreign
import AccelMonitor.Proofs.Benchmark.Timings
import AccelMonitor.Proofs.Benchmark.Latest
import AccelMonitor.Proofs.Session.Recent
import AccelMonitor.Proofs.Benchmark.Rounds
import AccelMonitor.Proofs.Benchmark.Arguments
import AccelMonitor.Proofs.Shell.Lines
import AccelMonitor.Proofs.Shell.Replies
import AccelMonitor.Proofs.Device.Fitness
import AccelMonitor.Proofs.KernelLog.Decoding
import AccelMonitor.Proofs.DeviceLog.Successor
