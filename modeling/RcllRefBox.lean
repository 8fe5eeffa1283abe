import RcllRefBox.Station
import RcllRefBox.Flow
import RcllRefBox.Dispatcher.Futures
import RcllRefBox.Dispatcher.Commands
import RcllRefBox.Dispatcher.SingleFlight
import RcllRefBox.Dispatcher.Waiting
import RcllRefBox.StatusFeedback
import RcllRefBox.System.State
import RcllRefBox.System.Discipline
import RcllRefBox.System.Serialization
import RcllRefBox.System.Feedback
import RcllRefBox.System.Progress
import RcllRefBox.Startup
import RcllRefBox.Startup.Threads
import RcllRefBox.Bson
import RcllRefBox.BsonTime
import RcllRefBox.ProtobufComm
import RcllRefBox.MongoUpdate
import RcllRefBox.LoadConfig
import RcllRefBox.ClipsPeriodic
import RcllRefBox.Timer
