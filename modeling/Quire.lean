import Quire.Main
import Quire.Proofs.Pipeline.Repeating
import Quire.Proofs.Pipeline.Retelling
import Quire.Proofs.Pipeline.Waits
import Quire.Rehearsal.Attempts
import Quire.Rehearsal.Naps
import Quire.Rehearsal.Scene
import Quire.Proofs.Pool.Schedule
import Quire.Proofs.Pool.Fanout
import Quire.Proofs.Job.Ended
import Quire.Proofs.Job.Finality
import Quire.Proofs.Question.Params
import Quire.Proofs.Question.Overlap
import Quire.Proofs.Store.Versions
import Quire.Proofs.Pipeline.Publishing
import Quire.Proofs.Pipeline.Lifecycle
import Quire.Proofs.Pipeline.Downstream
import Quire.Proofs.Job.Deadlines
import Quire.Proofs.Job.Listing
import Quire.Proofs.Pipeline.Discretion
import Quire.Proofs.Pipeline.Disciplines
import Quire.Proofs.Pipeline.Strangers
import Quire.Proofs.Pipeline.Confinement
import Quire.Proofs.Pipeline.Staging
import Quire.Proofs.Question.Owners
import Quire.Proofs.Pipeline.Routing
import Quire.Proofs.Pipeline.Cleaning
import Quire.Proofs.Pipeline.Editing
import Quire.Proofs.Pipeline.Tidying
import Quire.Proofs.Question.Settling
import Quire.Proofs.Ocr.Shards
import Quire.Proofs.Retry
import Quire.Proofs.Config.Loading
import Quire.Proofs.Config.Durations
import Quire.Proofs.Credential.Cache
import Quire.Proofs.Object.Paging
import Quire.Proofs.Upload.Registering
import Quire.Proofs.Question.Replies
import Quire.Proofs.Http.Body
import Quire.Proofs.Credential.Key
