import Gauge.Base.Machine
import Gauge.Base.Mailbox
import Gauge.Base.Stdio
import Gauge.Base.FirstMatch
import Gauge.Base.Tally
import Gauge.Calendar.Utils
import Gauge.History.Record
import Gauge.History.Clusters
import Gauge.Predict.Candidates
import Gauge.Predict.Rates
import Gauge.Predict.Soundness
import Gauge.Predict.Locality
import Gauge.Recorder.Files
import Gauge.Recorder.Handlers
import Gauge.Recorder.Restart
import Gauge.Recorder.Ledger
import Gauge.Recorder.Accesses
import Gauge.Recorder.Segmentation
import Gauge.Recorder.Recording
import Gauge.Recorder.Overlap
import Gauge.Recorder.Linear
import Gauge.Recorder.Failures
import Gauge.Recorder.Numbering
import Gauge.Recorder.Sessions
import Gauge.Recorder.Track
import Gauge.Calendar.Days
import Gauge.Calendar.Gregorian
import Gauge.Predict.Arrival
import Gauge.Recorder.Registry
import Gauge.Base.Json
import Gauge.Base.Digits
import Gauge.Base.Loop
import Gauge.Base.FileStore
import Gauge.Recorder.JsonHandler
import Gauge.Recorder.Payload
import Gauge.Recorder.Stamp
import Gauge.Recorder.Aliasing
import Gauge.Recorder.Places
import Gauge.Trace.State
import Gauge.Trace.Save
import Gauge.Trace.Load
import Gauge.Trace.Compare
import Gauge.Trace.Cursor
import Gauge.Recorder.Boot
import Gauge.Trace.Columns
import Gauge.Base.Records
import Gauge.Recorder.ByteFile
import Gauge.Base.Debounce
import Gauge.Recorder.Timing
import Gauge.Recorder.Messages
import Gauge.Recorder.Destinations
import Gauge.Base.Firsts
import Gauge.Predict.Saturation
import Gauge.Recorder.Learning
