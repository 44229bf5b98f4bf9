import WlabStation.Machine.Run
import WlabStation.Machine.Effect
import WlabStation.Machine.Temporal
import WlabStation.Machine.Fixed
import WlabStation.Machine.CString
import WlabStation.Machine.Printf
import WlabStation.Json.Parser
import WlabStation.Json.Grammar
import WlabStation.Json.Compact
import WlabStation.Json.Utf8
import WlabStation.Wlab.Buffer
import WlabStation.Wlab.Window
import WlabStation.Wlab.Process
import WlabStation.Wlab.Outlier
import WlabStation.Wlab.Clock
import WlabStation.Wlab.History
import WlabStation.Wlab.Feed
import WlabStation.Wlab.Minutes
import WlabStation.Wlab.SampleTime
import WlabStation.Wlab.Loss
import WlabStation.Wlab.Periodic
import WlabStation.Wlab.Payload
import WlabStation.Wlab.Authorize
import WlabStation.Wlab.TextLength
import WlabStation.Settings.Nvs
import WlabStation.Settings.Store
import WlabStation.Settings.RoundTrip
import WlabStation.Settings.Commands
import WlabStation.Settings.PublishPeriod
import WlabStation.Settings.NetCommands
import WlabStation.Settings.Startup
import WlabStation.Wlab.DeviceId
import WlabStation.Settings.Shell
import WlabStation.Station.MainLoop
import WlabStation.Mqtt.Subscribe
import WlabStation.Mqtt.Ownership
import WlabStation.Mqtt.Consume
import WlabStation.Mqtt.Publish
import WlabStation.Mqtt.Acknowledge
import WlabStation.Mqtt.PublishLength
import WlabStation.Mqtt.PacketId
import WlabStation.Mqtt.Delivery
import WlabStation.Mqtt.Worker
import WlabStation.Mqtt.Endpoint
import WlabStation.Mqtt.Resolver
import WlabStation.Mqtt.Subscription
import WlabStation.Mqtt.Session
import WlabStation.Mqtt.Keepalive
import WlabStation.Mqtt.Flags
import WlabStation.Mqtt.Recovery
import WlabStation.Mqtt.Retries
import WlabStation.Sensor.EdgeDecoder
import WlabStation.Sensor.Frame
import WlabStation.Sensor.Read
import WlabStation.Sensor.History
import WlabStation.Sensor.Clock
import WlabStation.Network.Wifi
import WlabStation.Network.Reconnect
import WlabStation.Network.Requests
import WlabStation.Network.Credentials
import WlabStation.Station.Watchdog
import WlabStation.Station.ClockError
import WlabStation.Station.Periodic
import WlabStation.Station.Rest
import WlabStation.System.Threads
import WlabStation.System.Components
import WlabStation.System.Cases
import WlabStation.System.Boot
import WlabStation.System.Gate
import WlabStation.System.Startup
import WlabStation.System.Silence
import WlabStation.System.Samples
import WlabStation.System.Feed
import WlabStation.System.Deadline
import WlabStation.System.Recovery
