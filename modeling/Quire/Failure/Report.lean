import Quire.Config.Load
import Quire.Failure.Pipeline

/-! Any failure of the library, told with the part that it comes from. -/
namespace Quire

inductive AnyError
  | config (e : ConfigError)
  | process (e : ProcessError)
  | storage (e : StorageError)
  | auth (e : AuthError)
  | store (e : StoreError)
  | secret (e : SecretError)
  | job (e : JobError)
  | pipeline (e : PipelineError)

instance : Failure AnyError where
  message
    | .config e => s!"Configuration error: {Failure.message e}"
    | .process e => s!"Processing error: {Failure.message e}"
    | .storage e => s!"Storage error: {Failure.message e}"
    | .auth e => s!"Authentication error: {Failure.message e}"
    | .store e => s!"Database error: {Failure.message e}"
    | .secret e => s!"Secret error: {Failure.message e}"
    | .job e => s!"Job error: {Failure.message e}"
    | .pipeline e => Failure.message e
  causes
    | .config e => Failure.chain e
    | .process e => Failure.chain e
    | .storage e => Failure.chain e
    | .auth e => Failure.chain e
    | .store e => Failure.chain e
    | .secret e => Failure.chain e
    | .job e => Failure.chain e
    | .pipeline e => Failure.causes e

end Quire
