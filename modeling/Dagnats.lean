import Dagnats.Properties.Inert
import Dagnats.Properties.Markers
import Dagnats.Properties.MaxSteps
import Dagnats.Properties.MemberSets
import Dagnats.Properties.RateLimit
import Dagnats.Properties.TaskLimit
import Dagnats.Properties.RunLimit
import Dagnats.Properties.OnFailure
import Dagnats.Properties.Singleton
import Dagnats.Properties.TerminalStatus
import Dagnats.Properties.Unwinding
import Dagnats.Properties.EventIDs
import Dagnats.Properties.TaskIDs
import Dagnats.Properties.Redispatch
import Dagnats.Properties.TimerEffects
import Dagnats.Properties.DefReaper
import Dagnats.Properties.LostUpdates
import Dagnats.Properties.ActiveIndex
import Dagnats.Journal.Recovery
import Dagnats.Properties.JournalFencing
import Dagnats.Properties.TaskRouting
import Dagnats.Properties.StepIDs
import Dagnats.Properties.Lookups
import Dagnats.Properties.SubjectKeys
import Dagnats.Properties.StepStorage
import Dagnats.Properties.LeaseFencing
import Dagnats.Properties.CronFiring
import Dagnats.Properties.HTTPIdempotency
import Dagnats.Properties.DeleteGuard
import Dagnats.Properties.ProgramReach
import Dagnats.Properties.Backoff
import Dagnats.Properties.Labels
import Dagnats.Properties.VersionKeys
import Dagnats.Properties.Provenance
