import NrfExamples.Library.WorkQueue

/-!
# The connection of the AWS IoT client

`connect_work_fn` retries the connection until the flag `cloud_connected` is set, and
`shadow_update_work_fn` publishes while it is set; both reschedule themselves on the system work
queue. The events of the library arrive on another thread and cancel, submit and schedule the same
work items.

A step is an event of the library, the end of a delay, or a block of the work queue thread: it takes
an item, or the running handler goes on to its next point. The calls that a handler makes between
its points only print what they return.
-/

namespace NrfExamples.AwsIot

/-- The options of `Kconfig`, in seconds. -/
structure Config where
  publicationIntervalSeconds : ℕ := 60
  connectionRetryTimeoutSeconds : ℕ := 30

inductive WorkItem where
  | connectWork
  | shadowUpdateWork
  | shadowUpdateVersionWork
deriving DecidableEq

/-- Where a handler stands: in front of its test of the flag, in its call of the library with the
reschedule still ahead, or in front of its return. -/
inductive Point where
  | entry
  | call
  | exit
deriving DecidableEq

structure Client where
  cloudConnected : Bool
  work : WorkQueue WorkItem Point

inductive Event where
  | connected
  | disconnected
  | timeout (item : WorkItem)
  | take
  | handler
deriving DecidableEq

namespace Client

/-- The state behind the last line of `main`. -/
def start : Client where
  cloudConnected := false
  work := WorkQueue.empty.schedule .connectWork 0

variable (config : Config)

/-! ## Handlers -/

/-- The next block of `connect_work_fn`. -/
def connectWorkFn (point : Point) (client : Client) : Client :=
  match point with
  | .entry =>
      { client with work := client.work.goto (if client.cloudConnected then .exit else .call) }
  | .call =>
      { client with
        work := (client.work.schedule .connectWork config.connectionRetryTimeoutSeconds).goto
          .exit }
  | .exit => { client with work := client.work.finish }

/-- The next block of `shadow_update_work_fn`. -/
def shadowUpdateWorkFn (point : Point) (client : Client) : Client :=
  match point with
  | .entry =>
      { client with work := client.work.goto (if client.cloudConnected then .call else .exit) }
  | .call =>
      { client with
        work := (client.work.schedule .shadowUpdateWork config.publicationIntervalSeconds).goto
          .exit }
  | .exit => { client with work := client.work.finish }

/-- The next block of `shadow_update_version_work_fn`, which tests nothing and returns behind its
call. -/
def shadowUpdateVersionWorkFn (point : Point) (client : Client) : Client :=
  match point with
  | .entry => { client with work := client.work.goto .call }
  | .call => { client with work := client.work.goto .exit }
  | .exit => { client with work := client.work.finish }

def workFn : WorkItem → Point → Client → Client
  | .connectWork => connectWorkFn config
  | .shadowUpdateWork => shadowUpdateWorkFn config
  | .shadowUpdateVersionWork => shadowUpdateVersionWorkFn

/-! ## Events of the library -/

/-- `AWS_IOT_EVT_CONNECTED` in `aws_iot_event_handler`. -/
def onConnected (client : Client) : Client where
  cloudConnected := true
  work := ((client.work.cancel .connectWork).submit .shadowUpdateVersionWork).schedule
    .shadowUpdateWork config.publicationIntervalSeconds

/-- `AWS_IOT_EVT_DISCONNECTED` in `aws_iot_event_handler`. -/
def onDisconnected (client : Client) : Client where
  cloudConnected := false
  work := (client.work.cancel .shadowUpdateWork).schedule .connectWork 0

/-! ## Steps -/

def step (client : Client) : Event → Option Client
  | .connected => some (client.onConnected config)
  | .disconnected => some client.onDisconnected
  | .timeout item => (client.work.expire item).map fun work ↦ { client with work := work }
  | .take => (client.work.take .entry).map fun work ↦ { client with work := work }
  | .handler => client.work.running.map fun handler ↦
      workFn config handler.item handler.point client

end Client

end NrfExamples.AwsIot
