import CodeShare.Harness.Embedding
import CodeShare.Harness.LiteralCompatibility
import CodeShare.Foundations.Tasks
import CodeShare.Properties.ExecutionLock
import CodeShare.Properties.ProblemStability
import CodeShare.Properties.HintOwnership
import CodeShare.Properties.MutualConsent
import CodeShare.Properties.SeatInvariant
import CodeShare.Properties.SolutionSecrecy
import CodeShare.Properties.Hydration
import CodeShare.Properties.ExecutionMirror
import CodeShare.Properties.PresenceMirror
import CodeShare.Properties.ReconnectTokens
import CodeShare.Properties.StoreOutage
import CodeShare.Properties.ResultProtocol
import CodeShare.Properties.HarnessAlignment
import CodeShare.Properties.BreakerStates
import CodeShare.Properties.OperationSlots
import CodeShare.Properties.ImportLimit
import CodeShare.Properties.CustomCases
import CodeShare.Properties.StoreAgreement
import CodeShare.Properties.TestCaseParameters
import CodeShare.Properties.ImportIsolation
import CodeShare.Properties.DocumentLimit
import CodeShare.Properties.YjsAdmission
import CodeShare.Properties.SessionCap
import CodeShare.Properties.SessionLifecycle
import CodeShare.Properties.SolutionReveal
import CodeShare.Properties.HintStreams
import CodeShare.Properties.SpendingCap
import CodeShare.Properties.InterviewerSeat
import CodeShare.Properties.PendingRequests
import CodeShare.Properties.InterviewAuthorization
import CodeShare.Properties.RoomCreation
import CodeShare.Properties.GracePeriods
import CodeShare.Properties.ArrivalOrder
import CodeShare.Properties.AccessRevocation
import CodeShare.Properties.GeneratedCases
import CodeShare.Properties.FixedWindows
import CodeShare.Properties.DocumentCoherence
import CodeShare.Properties.ExecutionBracket
import CodeShare.Properties.ImportBracket
import CodeShare.Properties.HintBracket
import CodeShare.Properties.Grading
import CodeShare.Properties.OutputTruncation
import CodeShare.Properties.HintPolicy
import CodeShare.Properties.Delimiters
import CodeShare.Properties.PromptBlocks
import CodeShare.Properties.CookieCodec
import CodeShare.Properties.RoomCodes
import CodeShare.Text.TextDecoder
import CodeShare.Properties.StreamChunks
import CodeShare.Properties.BreakerCoverage
import CodeShare.Properties.RetryAfter
import CodeShare.Properties.VerifiedAnswers
import CodeShare.Properties.FailingConnections
import CodeShare.Properties.CommentStripping
import CodeShare.Properties.HintStreamPolicy
import CodeShare.Properties.CustomCaseCap
import CodeShare.Properties.CaseVerdict
import CodeShare.Services.EntityDecoding
import CodeShare.Services.HtmlTree
import CodeShare.Services.HtmlPasses
import CodeShare.Services.HtmlReading
import CodeShare.Properties.ProblemText
import CodeShare.Properties.ExampleBlocks
import CodeShare.Properties.InputRoundTrip
import CodeShare.Properties.TopLevelSplit
import CodeShare.Properties.ImportAtomicity
import CodeShare.Properties.Quiescence
import CodeShare.Properties.ExecutionVerdict
import CodeShare.Properties.ComingBack
import CodeShare.Properties.DocumentTokens
import CodeShare.Properties.MigrationRuns
import CodeShare.Properties.ShutdownOrder
import CodeShare.Properties.AnsweredTwice
import CodeShare.Properties.MemberMandate
import CodeShare.Properties.AccessMediation
