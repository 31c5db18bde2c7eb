import Bms.Process.Pool
import Bms.Model.SubJobCombinedDhp
import Bms.Model.ServicesApi
import Bms.Model.Consumers
import Bms.Model.Replay
import Bms.Model.Wire
import Bms.Properties.EndedForGood
import Bms.Properties.NoOverlap
import Bms.Properties.StartKept
import Bms.Properties.CancelFinal
import Bms.Properties.JobClosed
import Bms.Properties.CompletionSound
import Bms.Properties.AnsweredCompletes
import Bms.Properties.AlwaysAnswers
import Bms.Properties.ScaledOnce
import Bms.Properties.NoOrphans
import Bms.Properties.DispatchedOnce
import Bms.Properties.WireSafe
import Bms.Properties.FailedRequests
import Bms.Protocol.StatusMessages
import Bms.Properties.WorkerOrder
import Bms.Properties.WorkerTopics
import Bms.Properties.DownloadLimit
import Bms.Protocol.Creations
import Bms.Properties.ScaledFirst
import Bms.Properties.CompletedJobs
import Bms.Protocol.Marks
import Bms.Properties.HeadBounded
import Bms.Protocol.Descaling
import Bms.Properties.ServicesOutlive
import Bms.Properties.ExcludedWorkers
import Bms.Properties.FileRange
import Bms.Properties.FirstByte
import Bms.Properties.DownloadAccounting
import Bms.Properties.StatusRedelivery
import Bms.Properties.TransientErrors
import Bms.Properties.StageParameters
import Bms.Properties.RangeRequest
import Bms.Properties.ScaleRequests
import Bms.Properties.CompletionRecovered
import Bms.Properties.ScaleAmounts
import Bms.Properties.TargetReached
import Bms.Properties.ResultRedelivery
import Bms.Properties.JobPages
import Bms.Properties.AverageLatency
import Bms.Properties.SpeedSummary
import Bms.Properties.JobsReadable
import Bms.Properties.LifecycleTimes
import Bms.Properties.SilentMarked
import Bms.Properties.SubscriberConsumes
import Bms.Process.Signal
import Bms.Properties.StartupConnects
import Bms.Properties.DispatchOrder
import Bms.Properties.MessageTrail
import Bms.Properties.SubJobStates
import Bms.Properties.CompletedMeasured
import Bms.Properties.PublisherChannels
import Bms.Properties.StatusTransitions
import Bms.Properties.ResultsOnce
import Bms.Properties.QueueDrains
import Bms.Properties.Panics
import Bms.Properties.ServiceTopics
