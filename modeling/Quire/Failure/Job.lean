import Quire.Store.Error
import Quire.Lifecycle

/-! What can go wrong with a job, and with generating questions. -/
namespace Quire

inductive JobError
  | store (inner : StoreError)
  | notFound (id : String)
  /-- The job had already ended. -/
  | terminal (id : String) (status : JobStatus)

instance : Failure JobError where
  message
    | .store inner => s!"Job store error: {Failure.message inner}"
    | .notFound id => s!"Job '{id}' not found"
    | .terminal id status => s!"Job '{id}' is already {Label.word status}"
  causes
    | .store inner => Failure.chain inner
    | _ => []

inductive GenerationError
  | llm (inner : LlmError)
  | malformed (reason : String)
  | invalidParams (reason : String)
  | store (inner : StoreError)

instance : Failure GenerationError where
  message
    | .llm inner => Failure.message inner
    | .malformed reason => s!"Malformed generation output: {reason}"
    | .invalidParams reason => s!"Invalid generation parameters: {reason}"
    | .store inner => s!"Generation cache error: {Failure.message inner}"
  causes
    | .llm inner => Failure.causes inner
    | .store inner => Failure.chain inner
    | _ => []

instance : Widen StoreError JobError := ⟨.store⟩
instance : Widen StoreError GenerationError := ⟨.store⟩
instance : Widen LlmError GenerationError := ⟨.llm⟩

end Quire
