import NrfExamples.Library.Window
import NrfExamples.Library.Trace
import NrfExamples.Library.Memory
import NrfExamples.Library.Word
import NrfExamples.Library.WorkQueue
import NrfExamples.AwsIot.Client
import NrfExamples.AwsIot.Reconnection
import NrfExamples.Library.TrailingRun
import NrfExamples.Library.Blocks
import NrfExamples.Library.Procedure
import NrfExamples.Library.Scanf
import NrfExamples.Library.Semaphore
import NrfExamples.Library.Smoothing
import NrfExamples.Library.Checked
import NrfExamples.Library.Crc
import NrfExamples.Library.RetryBudget
import NrfExamples.Library.BoundedQueue
import NrfExamples.Library.SignedBounds
import NrfExamples.Library.StopOnError
import NrfExamples.Library.Descriptors
import NrfExamples.MqttWorking.UnitLib
import NrfExamples.MqttWorking.Sampling
import NrfExamples.MqttWorking.CircularBuffer
import NrfExamples.MqttWorking.Recorder
import NrfExamples.MqttWorking.Measurement
import NrfExamples.MqttWorking.Recorded
import NrfExamples.MqttWorking.Segment
import NrfExamples.MqttWorking.Sender
import NrfExamples.MqttWorking.PacketContents
import NrfExamples.MqttWorking.PacketSequence
import NrfExamples.MqttWorking.Transmission
import NrfExamples.MqttWorking.Padding
import NrfExamples.MqttWorking.Integrity
import NrfExamples.MqttWorking.Errno
import NrfExamples.MqttWorking.MqttConnection
import NrfExamples.MqttWorking.Recognition
import NrfExamples.MqttWorking.Polling
import NrfExamples.MqttWorking.PollingCases
import NrfExamples.MqttWorking.PollingBounds
import NrfExamples.MqttWorking.Program
import NrfExamples.MqttWorking.ModemLibrary
import NrfExamples.MqttWorking.PendingData
import NrfExamples.MqttWorking.Configuration
import NrfExamples.MqttWorking.Registration
import NrfExamples.MqttWorking.OffsetGathering
import NrfExamples.MqttWorking.RunningRms
import NrfExamples.MqttWorking.SamplingPipeline
import NrfExamples.MqttWorking.RingCopy
import NrfExamples.MqttWorking.ErrorDetection
import NrfExamples.MqttWorking.ReadErrors
import NrfExamples.MqttWorking.SenderSteps
import NrfExamples.MqttWorking.SenderRuns
import NrfExamples.MqttWorking.GivenUpRecords
import NrfExamples.MqttWorking.ButtonHeaders
import NrfExamples.MqttWorking.UnitLife
import NrfExamples.MqttWorking.LogRamBackend
import NrfExamples.MqttWorking.LogDump
import NrfExamples.MqttWorking.PayloadStream
import NrfExamples.MqttWorking.PayloadReads
import NrfExamples.MqttWorking.MessageStream
import NrfExamples.MqttWorking.ConfigBuffer
import NrfExamples.MqttWorking.FailureReports
import NrfExamples.MqttWorking.UartDump
import NrfExamples.MqttWorking.Bme280
import NrfExamples.MqttWorking.PressureBounds
import NrfExamples.MqttWorking.SensorTransfers
import NrfExamples.MqttWorking.CalibrationLayout
import NrfExamples.MqttWorking.SensorErrors
import NrfExamples.BasicNetworking.HttpGet
import NrfExamples.SampleAverager
import NrfExamples.Library.ReferenceClock
import NrfExamples.Library.Layout
import NrfExamples.Library.Reassembly
import NrfExamples.Library.EntryStore
import NrfExamples.Library.Print
import NrfExamples.MqttWorking.Rtcc
import NrfExamples.MqttWorking.Timestamps
import NrfExamples.MqttWorking.WireFormat
import NrfExamples.MqttWorking.EepromEmul
import NrfExamples.MqttWorking.ConfigText
import NrfExamples.MqttWorking.StoredSettings
import NrfExamples.MqttWorking.EepromLife
import NrfExamples.Library.Heap
import NrfExamples.AwsIot.Publication
import NrfExamples.Gnss.NmeaQueue
import NrfExamples.Gnss.AssistanceRequests
import NrfExamples.Gnss.AssistanceSupl
import NrfExamples.MqttWorking.LogStream
import NrfExamples.MqttWorking.RecordedSignal
import NrfExamples.MqttWorking.ReceivedSignal
import NrfExamples.MqttWorking.SampleTicks
import NrfExamples.AwsIot.ShadowDocument
import NrfExamples.AwsIot.DocumentRuns
