import Quire.Proofs.Flow.Company
import Quire.Proofs.Pipeline.Requests

/-! What a check comes to.

A check asks for the state of the operation once, and then looks after its job until it fails or
completes it, if it does so at all. Whoever wants to know what a check leaves says what is there as
long as the job is only looked after, and what is there when it has been failed or completed
(`Follows`); and every check comes to one of a few ends (`Verdict`). -/
namespace Quire

/-- The state of an operation is asked for, or a pause is made. -/
def Effect.isWaiting {β : Type} : Effect β → Bool
  | .status _ | .sleep _ => true
  | _ => false

/-- A file is sent somewhere, or it is said where one is. -/
def Effect.isSending {β : Type} : Effect β → Bool
  | .put _ _ _ | .recognize _ _ | .submit _ _ _ => true
  | _ => false

/-- A dialogue on a job that is only looked after. -/
def Dialogue.tending (K : TxnKind) : Dialogue where
  issues := K
  asks e := e.isWaiting = false ∧ e.isSending = false
  gives _ _ := True

theorem Dialogue.tends_tending (K : TxnKind) : (tending K).Tends :=
  ⟨⟨rfl, rfl⟩, fun _ _ _ => ⟨rfl, rfl⟩, fun _ _ => ⟨rfl, rfl⟩⟩

/-- The operation is done, and has failed or not. -/
def Ocr.OperationStatus.Ends (message? : Option String) (answer : Except OcrError OperationStatus) :
    Prop :=
  ∃ state, answer = .ok state ∧ state.done = true ∧ state.error = message?

/-- The operation has not failed, as far as it is told. -/
def Ocr.OperationStatus.Unfailed (answer : Except OcrError OperationStatus) : Prop :=
  ∀ message, ¬ Ends (some message) answer

theorem Ocr.OperationStatus.Ends.unfailed {answer : Except OcrError OperationStatus}
    (h : Ends none answer) : Unfailed answer := by
  rintro message ⟨state, rfl, -, herror⟩
  obtain ⟨_, hstate, -, hnone⟩ := h
  obtain rfl := Except.ok.inj hstate
  exact absurd (herror.symm.trans hnone) (Option.some_ne_none _)

namespace Pipeline
variable {σ : Type}

/-- What is there while a job is looked after, and after it has been failed or completed; a failure
that is refused leaves `F`. -/
structure Follows (c : Company σ) (K : TxnKind) (job : Job) (P : Moment σ → Prop)
    (D : JobReport → Moment σ → Prop) (F : Moment σ → Prop) : Prop where
  alive : ∀ now timeoutAt, K _ _
    (guarded job.id (Jobs.Change.statement job.id now (.alive timeoutAt)))
  note : ∀ kind step message trace now, K _ _ (Jobs.insertEvent job.id kind step message trace now)
  collects : ∀ documentId, documentOf job = .ok documentId → Collects K job.id documentId
  tended : ∀ {α : Type} {f : Flow α}, f.Abides (.tending K) (fun _ => True) → ∀ m, P m →
    Flow.Leads c.reading (fun _ => P) f m
  fails : ∀ message detail now, Run.Amid (ε := PipelineError) c P
    (fun _ => D (.failed job.id message)) (fun _ => F)
    (Run.transact (failJob job message detail now))
  completes : ∀ documentId, documentOf job = .ok documentId → ∀ collected cleanupFailed now,
    Run.Amid (ε := PipelineError) c P (fun _ => D (.completed job.id collected.pageCount)) (fun _ => P)
      (Run.transact (completeJob job.id documentId collected cleanupFailed now))

namespace Follows
variable {c : Company σ} {K : TxnKind} {job : Job} {P : Moment σ → Prop}
  {D : JobReport → Moment σ → Prop} {F : Moment σ → Prop} (h : Follows c K job P D F) {ε α : Type}
include h

theorem run {R : α → Prop} {r : Run ε α} (hr : r.Abides (.tending K) R) :
    r.Amid c P (fun _ => P) fun _ => P := by
  have hrun : r.run.Abides (.tending K) fun _ => True := hr.run.mono fun _ _ => trivial
  refine Run.Amid.iff_leads.mpr fun m hm => (h.tended hrun m hm).mono fun o n hn => ?_
  cases o with
  | ok a => exact hn
  | error e => exact hn

theorem clock {E : ε → Moment σ → Prop} :
    (Run.clock : Run ε Instant).Amid c P (fun _ => P) E :=
  Run.Amid.iff_leads.mpr fun m hm => (Run.Leads.lift _).mpr
    (h.tended (Flow.Abides.inquire (e := .clock) ⟨rfl, rfl⟩) m hm)

end Follows

/-- What an answer leads to, and the moment after it. -/
inductive Verdict (job : Job) (P : Moment σ → Prop) (D : JobReport → Moment σ → Prop)
    (F : Moment σ → Prop) (answer : Except OcrError Ocr.OperationStatus) :
    Except PipelineError JobReport → Moment σ → Prop
  /-- The operation is not done. -/
  | polling {m : Moment σ} : (∀ message?, ¬ Ocr.OperationStatus.Ends message? answer) → P m →
      Verdict job P D F answer (.ok (.polling job.id)) m
  /-- The check has broken off, and may be made again. -/
  | undecided {e : PipelineError} {m : Moment σ} : Ocr.OperationStatus.Unfailed answer → P m →
      Verdict job P D F answer (.error e) m
  /-- The operation has failed, and so has the job. -/
  | failed {message : String} {m : Moment σ} : Ocr.OperationStatus.Ends (some message) answer →
      D (.failed job.id message) m → Verdict job P D F answer (.ok (.failed job.id message)) m
  | completed {pageCount : UInt32} {m : Moment σ} : Ocr.OperationStatus.Ends none answer →
      D (.completed job.id pageCount) m →
      Verdict job P D F answer (.ok (.completed job.id pageCount)) m
  /-- The results cannot be collected, and the job has failed for it. -/
  | broken {e : PipelineError} {m : Moment σ} : Ocr.OperationStatus.Ends none answer →
      e.isRetryable = false → D (.failed job.id e.publicMessage) m →
      Verdict job P D F answer (.error e) m
  /-- A failure was refused. -/
  | refused {e : PipelineError} {m : Moment σ} : F m → Verdict job P D F answer (.error e) m

/-- A check comes to what is said of its outcome and of the moment after it. -/
abbrev Comes (c : Company σ) (P : Moment σ → Prop)
    (V : Except PipelineError JobReport → Moment σ → Prop) (r : Run PipelineError JobReport) : Prop :=
  r.Amid c P (fun report => V (.ok report)) fun e => V (.error e)

/-- A failure is told only. -/
theorem Comes.outcome {c : Company σ} {P : Moment σ → Prop}
    {V : Except PipelineError JobReport → Moment σ → Prop} {r : Run PipelineError JobReport}
    (h : Comes c P V r) {E : PipelineError → Moment σ → Prop} :
    (Run.outcome r : Run PipelineError _).Amid c P V E := Run.Amid.outcome h

section
variable {c : Company σ} {K : TxnKind} {job : Job} {P : Moment σ → Prop}
  {D : JobReport → Moment σ → Prop} {F : Moment σ → Prop} (h : Follows c K job P D F)
include h

theorem fail_follows (message : String) (detail : Option String) :
    (fail job message detail).Amid c P
      (fun report m => report = .failed job.id message ∧ D report m) fun _ => F :=
  h.clock.bind fun now => (h.fails message detail now.timestamp).bind fun _ =>
    .pure fun _ hm => ⟨rfl, hm⟩

/-- A job is completed, or it is still looked after. -/
abbrev Finishes (c : Company σ) (job : Job) (P : Moment σ → Prop) (D : JobReport → Moment σ → Prop)
    (r : Run PipelineError JobReport) : Prop :=
  r.Amid c P (fun report m => ∃ pageCount, report = .completed job.id pageCount ∧ D report m)
    fun _ => P

theorem close_follows {documentId : String} (hdocument : documentOf job = .ok documentId)
    (inputKey : String) (keys : List String) (collected : Collected) :
    Finishes c job P D (close job.id documentId inputKey keys collected) := by
  have hdelete : (deleteFiles job.id (inputKey :: keys)).Abides (.tending K) fun _ => True :=
    deleteFiles_abides (Dialogue.tends_tending K) h.note fun _ _ => ⟨rfl, rfl⟩
  refine (h.run hdelete).bind fun cleanupFailed => h.clock.bind fun now => ?_
  exact (h.completes documentId hdocument collected cleanupFailed now.timestamp).bind fun _ =>
    .pure fun _ hm => ⟨_, rfl, hm⟩

theorem finalize_follows (p : Pipeline) : Finishes c job P D (p.finalize job) := by
  rw [finalize_eq]
  refine .ofExcept_bind (fun _ _ _ hm => hm) fun staging _ => ?_
  refine .ofExcept_bind (fun _ _ _ hm => hm) fun documentId hdocument => ?_
  refine (h.run (Run.Abides.demand (e := .list staging.outputFolder) ⟨rfl, rfl⟩)).bind fun found => ?_
  have hgather : (p.gather job.id documentId (found.filter Ocr.Shard.isShardKey)).Abides (.tending K)
      fun _ => True :=
    p.gather_abides (Dialogue.tends_tending K) (h.collects documentId hdocument) fun _ _ => ⟨rfl, rfl⟩
  exact (h.run hgather).bind fun collected => close_follows h hdocument staging.inputKey _ collected

/-- What was collected is told, or the job is failed for it, or the check can be made again. -/
theorem settle_follows {answer : Except OcrError Ocr.OperationStatus}
    (hdone : Ocr.OperationStatus.Ends none answer) (o : Except PipelineError JobReport) :
    (settle job o).Amid c
      (Either (fun report m => ∃ pageCount, report = .completed job.id pageCount ∧ D report m)
        (fun _ => P) o)
      (fun report => Verdict job P D F answer (.ok report))
      fun e => Verdict job P D F answer (.error e) := by
  cases o with
  | ok report =>
    refine .pure fun m hm => ?_
    obtain ⟨pageCount, rfl, hm⟩ := hm
    exact .completed hdone hm
  | error e =>
    unfold settle
    dsimp only
    split
    case isTrue hlasting =>
      refine ((fail_follows h _ _).conseq (fun _ hm => hm) (fun _ _ hm => hm) fun _ m hm =>
        .refused hm).bind fun report => .throw fun m hm => ?_
      obtain ⟨rfl, hm⟩ := hm
      exact .broken hdone (by simpa using hlasting) hm
    case isFalse => exact .throw fun m hm => .undecided hdone.unfailed hm

theorem proceed_follows (p : Pipeline) (state : Ocr.OperationStatus) :
    Comes c P (Verdict job P D F (.ok state)) (p.proceed job state) := by
  unfold proceed
  split
  case isTrue hrunning =>
    have hopen : ∀ message?, ¬ Ocr.OperationStatus.Ends message? (.ok state) := by
      rintro message? ⟨_, hstate, hdone, -⟩
      obtain rfl := Except.ok.inj hstate
      rw [hdone] at hrunning
      cases hrunning
    have halive : (p.ledger.signalAlive job.id).Abides (.tending K) fun _ => True :=
      Ledger.atNow_abides (c := .tending K) ⟨rfl, rfl⟩ fun now => h.alive now.timestamp _
    refine ((h.run (halive.widen)).conseq (fun _ hm => hm) (fun _ _ hm => hm) fun _ _ hm =>
      .undecided (fun message => hopen (some message)) hm).bind fun _ => .pure fun _ hm => .polling hopen hm
  case isFalse hdone =>
    have hdone : state.done = true := by simpa using hdone
    split
    case h_1 message hmessage =>
      refine (fail_follows h message none).conseq (fun _ hm => hm) (fun _ m hm => ?_) fun _ _ hm =>
        .refused hm
      obtain ⟨rfl, hm⟩ := hm
      exact .failed ⟨state, rfl, hdone, hmessage⟩ hm
    case h_2 hnone =>
      exact Run.Amid.bind (.outcome (finalize_follows h p)) fun o =>
        settle_follows h ⟨state, rfl, hdone, hnone⟩ o

/-- Without an operation there is nothing to ask for. -/
theorem check_unaddressed (p : Pipeline) (hhandle : job.operationHandle = none) :
    (p.check job).Amid c P (fun report m =>
      report = .failed job.id "Job has no operation handle" ∧ D report m) fun _ => F := by
  unfold check
  rw [hhandle]
  exact fail_follows h _ none

end

/-- The state of the operation is asked for once, and the rest of a check follows the answer. -/
theorem check_follows (p : Pipeline) {c : Company σ} {K : TxnKind} {job : Job}
    {handle : String} (hhandle : job.operationHandle = some handle) {P₀ F : Moment σ → Prop}
    {P : Except OcrError Ocr.OperationStatus → Moment σ → Prop}
    {D : Except OcrError Ocr.OperationStatus → JobReport → Moment σ → Prop}
    (hasked : Run.Amid (ε := PipelineError) c P₀ P
      (fun _ _ => False) (Run.perform (.status handle)))
    (h : ∀ answer, Follows c K job (P answer) (D answer) F) :
    Comes c P₀ (fun o m => ∃ answer, Verdict job (P answer) (D answer) F answer o m)
      (p.check job) := by
  unfold check
  rw [hhandle]
  refine (hasked.conseq (fun _ hm => hm) (fun _ _ hm => hm) fun _ _ hm => hm.elim).bind fun answer => ?_
  cases answer with
  | ok state =>
    exact (proceed_follows (h (.ok state)) p state).conseq (fun _ hm => hm) (fun _ _ hm => ⟨_, hm⟩)
      fun _ _ hm => ⟨_, hm⟩
  | error e =>
    have hagain : Ocr.OperationStatus.Unfailed (.error e) := by
      rintro message ⟨_, hstate, -⟩
      cases hstate
    have hnote := Ledger.addEvent_abides (c := .tending K) ⟨rfl, rfl⟩ (h (.error e)).note .warning (some "poll")
      ("Operation status check failed" ++ ": " ++ Failure.message e) (some (Failure.trace e))
    refine (((h (.error e)).run hnote.widen).conseq (fun _ hm => hm) (fun _ _ hm => hm)
      fun _ _ hm => ⟨_, .undecided hagain hm⟩).bind fun _ => .throw fun _ hm => ⟨_, .undecided hagain hm⟩

end Pipeline
end Quire
