import Movid.Graph.Clear
import Movid.Graph.Commute
import Movid.Tracker.Fiducial
import Movid.Tracker.Greedy
import Movid.Tracker.Capacity
import Movid.Tracker.Rotation
import Movid.Schedule.Delivery
import Movid.Preset.Texts
import Movid.Preset.Reload
import Movid.Preset.Tokens
import Movid.Preset.LateSets
import Movid.Preset.Calibration
import Movid.Server.Errors
import Movid.Server.Names
import Movid.Server.Query
import Movid.Server.Connect
import Movid.Output.Opening
import Movid.Output.Relations
import Movid.Output.Layout
import Movid.Schedule.Lifecycle
import Movid.Image.Channels
import Movid.Image.Background
import Movid.Image.Peaks
import Movid.Blob.Pipeline
import Movid.Blob.Triangle
import Movid.Blob.Registration
import Movid.Schedule.Handshake
import Movid.Blob.Session
import Movid.Blob.Reconnection
import Movid.Blob.Cloning
import Movid.Blob.Fingers
import Movid.Graph.Formats
import Movid.Image.Roi
import Movid.Image.Video
import Movid.Server.File
import Movid.Server.Stream
import Movid.Tracker.Least
import Movid.Osc.Accepted
import Movid.Output.Datagram
import Movid.Json.RoundTrip
import Movid.Fiducial.Colours
