import Quire.Proofs.Flow.Beside
import Quire.Proofs.Flow.Frames
import Quire.Proofs.Pipeline.Lifecycle
import Quire.Proofs.Store.Versions

/-! Whose questions are kept.

Questions are kept for the owner of the job that wants them, with the document of the version that
they are made from; nothing compares the two. So the owner of a document has the questions on it, as
long as every generation job wants a version of a document of its own. -/
namespace Quire
open Txn

/-! ### What generation jobs want -/

/-- The job generates questions. -/
def JobRow.isGeneration (r : JobRow) : Bool := r.jobType == Label.word JobType.generateQuestions

/-- The job wants questions on the version of an id. -/
def JobRow.Wants (r : JobRow) (versionId : String) : Prop :=
  ∃ j p, r.params.read = .ok j ∧ Json.readValue GenerationJobParams.shape j = .ok p ∧
    p.versionId = versionId

namespace Store

/-- What a generation job wants is a version of a document of its owner, if it is there at all. -/
def Entitles (s : Store) (r : JobRow) : Prop :=
  r.isGeneration = true → ∀ v ∈ s.versions, r.Wants v.id → s.ownerOf v.documentId = some r.ownerId

/-- Every artifact on a document belongs to the document's owner in `z`. -/
def KeepsFor (z s : Store) : Prop :=
  ∀ a ∈ s.artifacts, ∀ d, a.documentId = some d → z.ownerOf d = some a.ownerId

theorem KeepsFor.of_same {z s s' : Store} (hsame : s'.artifacts = s.artifacts)
    (h : z.KeepsFor s) : z.KeepsFor s' := fun a ha => h a (hsame ▸ ha)

/-- There is a job of an id and an owner. -/
def HasJobOf (jobId ownerId : String) (s : Store) : Prop :=
  ∃ r ∈ s.jobs, r.id = jobId ∧ r.ownerId = ownerId

/-- A store on the way to `z`: its versions and the owners of its jobs are still there, and its
generation jobs want nothing that is somebody else's. -/
structure Toward (z s : Store) : Prop where
  entitled : ∀ r ∈ s.jobs, z.Entitles r
  versions : ∀ v ∈ s.versions, v ∈ z.versions
  jobs : ∀ r ∈ s.jobs, z.HasJobOf r.id r.ownerId

end Store

/-! ### What lasts -/

@[simp] theorem Jobs.Change.apply_ownerId (c : Change) (now : String) (r : JobRow) :
    (c.apply now r).ownerId = r.ownerId := by cases c <;> rfl

/-- A job does not change its owner. -/
theorem Store.hasJobOf_unharmed (jobId ownerId : String) :
    Unharmed fun s => s.Sound ∧ s.HasJobOf jobId ownerId := by
  refine .of_jobs (fun hjobs h => ?_) (fun id now c _ _ h => ?_) fun n id now heartbeat h => ?_
  · unfold HasJobOf
    rw [hjobs]
    exact h
  · obtain ⟨r, hr, hid, howner⟩ := h
    refine ⟨_, mem_changeWhere.mpr ⟨r, hr, rfl⟩, ?_⟩
    split
    · simp [hid, howner]
    · exact ⟨hid, howner⟩
  · obtain ⟨r, hr, hjob⟩ := h
    exact ⟨r, List.mem_append_left _ hr, hjob⟩

/-- A version does not go away. -/
theorem Store.mem_versions_unharmed (v : Version) : Unharmed fun s => v ∈ s.versions := by
  refine .of_versions (fun hsame h => ?_) fun v' => ?_
  · rw [hsame]
    exact h
  · refine Keeps.bind (Keeps.require _ _) fun _ => Keeps.bind Keeps.store fun _ =>
      Keeps.bind (Keeps.require _ _) fun _ => Keeps.bind (Keeps.require _ _) fun _ =>
        Keeps.bind (Keeps.require _ _) fun _ => Keeps.modify fun s h => ?_
    exact List.mem_append_left _ h

/-! ### Who adds artifacts -/

section Artifacts
variable {K : Store → Prop} (hsame : ∀ {s s' : Store}, s'.artifacts = s.artifacts → K s → K s')
include hsame

/-- All calls but those that generate leave the artifacts alone. -/
theorem Call.serves_artifacts : Call.Serves (fun _ _ t => t.Keeps K) fun _ => True := by
  have hstatement (id now : String) (c : Jobs.Change) : (c.statement id now).Keeps K :=
    Jobs.statement_frame (I := K) (fun _ _ => hsame rfl) id now c
  have hnote (jobId : String) (kind : EventKind) (step : Option String) (message : String)
      (trace : Option String) (now : String) :
      (Jobs.insertEvent jobId kind step message trace now).Keeps K :=
    Jobs.insertEvent_frame (I := K) (fun _ _ _ => hsame rfl) jobId kind step message trace now
  have hqueue (job : Job) : (Jobs.insert job).Keeps K :=
    Jobs.insertRow_frame (I := K) (fun _ _ => hsame rfl) _
  have hdocument (id : String) (allowed : List DocumentStatus) (f : DocumentRow → DocumentRow) :
      (Documents.changeFrom id allowed f).Keeps K :=
    Documents.changeFrom_frame (I := K) (fun _ _ => hsame rfl) id allowed f
  have hpage (documentId : String) (p : NewPage) (now : String) :
      (Pages.upsert documentId p now).Keeps K :=
    Pages.upsert_frame (I := K) (fun _ _ _ => hsame rfl) documentId p now
  have hchange (id now : String) (c : Jobs.Change) : (guarded id (c.statement id now)).Keeps K :=
    guarded_keeps (hstatement id now c) id
  exact
    { register := fun _ _ _ _ => Documents.insertAs_frame (I := K) (fun _ _ => hsame rfl) _ _
      enqueue := fun _ _ _ _ => hqueue _
      acquire := fun _ _ _ _ => tryAcquire_keeps (hqueue _)
      change := fun id now c _ => hchange id now c
      note := hnote
      lock := fun documentId _ _ _ _ => Pipeline.lockDocument_keeps (hqueue _)
        (fun _ => hdocument _ _ _) (Pages.deleteAll_frame (I := K) (fun _ _ _ => hsame rfl) documentId) hnote
      works := fun document jobId _ => .of_statements (hstatement jobId) (hnote jobId)
        (hpage document.id) (fun _ _ => hdocument _ _ _) fun _ => hdocument _ _ _
      find := fun jobId => (Jobs.find_readOnly jobId).keeps K
      checks := fun job => .of_statements (hstatement job.id) (hnote job.id) (fun d _ => hpage d)
        (fun _ _ _ _ => hdocument _ _ _) fun _ _ _ => hdocument _ _ _
      listStale := fun now => (Jobs.listStale_readOnly now).keeps K
      sweep := fun job => Sweep.failJob_keeps (fun _ now => hstatement job.id now _) (hnote job.id)
        fun _ _ => hdocument _ _ _
      edit := fun _ ownerId pageNo text now => Pipeline.editPage_keeps
        (fun _ _ _ => Pages.setEdit_frame (I := K) (fun _ _ _ => hsame rfl) _ _ _ ownerId _) pageNo text now
      publish := fun _ ownerId o ids now heartbeat => Pipeline.publishDraft_keeps
        (fun v _ => Versions.insert_frame (I := K) (fun _ _ => hsame rfl) v) (fun _ _ _ => hdocument _ _ _)
        (fun _ _ _ _ _ _ => hqueue _) ownerId o ids now heartbeat }

end Artifacts

/-- Artifacts are only added for the owners of their documents in `z`, and transactions meet stores
on the way there. -/
def Dialogue.toward (z : Store) : Dialogue :=
  (Dialogue.issuing fun _ _ t => t.Keeps z.KeepsFor).among z.Toward

namespace GenerationJob
variable {z : Store} {jobId : String}

/-- What is found for a generation job on the way to `z`. -/
structure Fair (z : Store) (jobId : String) (job : Job) : Prop where
  owner : z.HasJobOf jobId job.ownerId
  entitled : job.type = .ok .generateQuestions → ∀ p, paramsOf job = .ok p → ∀ v ∈ z.versions,
    v.id = p.versionId → z.ownerOf v.documentId = some job.ownerId

theorem find_fair : (Ledger.find jobId).Abides (.toward z) (Fair z jobId) := by
  refine Ledger.find_abides ((Jobs.find_readOnly jobId).keeps _) fun s hs r hr hid job hshows => ?_
  refine ⟨?_, fun htype p hp v hv hwants => ?_⟩
  · rw [← hid, hshows.ownerId]
    exact hs.jobs r hr
  · have hkind : r.isGeneration = true := by
      unfold JobRow.isGeneration
      rw [← hshows.jobType, StoredKind.word_of_read htype]
      exact beq_self_eq_true _
    have hread : Json.readValue GenerationJobParams.shape job.params = .ok p := by
      unfold paramsOf at hp
      split at hp
      case h_1 p' hread =>
        obtain rfl := Except.ok.inj hp
        exact hread
      case h_2 => cases hp
    rw [hshows.ownerId]
    exact hs.entitled r hr hkind v hv ⟨job.params, p, hshows.params, hread, hwants.symm⟩

/-- Questions on a version are kept for the owner of its document. -/
theorem getOrGenerate_toward {d ownerId : String} (howner : z.ownerOf d = some ownerId)
    (text : String) (q : QuestionParams) :
    (QuestionCache.getOrGenerate ownerId (some d) text q).Abides (.toward z) fun _ => True := by
  refine QuestionCache.getOrGenerate_abides trivial trivial trivial
    (fun _ => (Artifacts.find_readOnly ownerId _).keeps _) fun fingerprint now named => ?_
  refine Artifacts.insertAll_keeps fun a ha => ?_
  refine Keeps.bind Keeps.store fun _ => Keeps.bind (Keeps.require _ _) fun _ =>
    Keeps.modify fun s hs b hb d' hd' => ?_
  rcases List.mem_append.mp hb with hb | hb
  · exact hs b hb d' hd'
  · obtain rfl := List.mem_singleton.mp hb
    obtain ⟨⟨id, question⟩, -, rfl⟩ := List.mem_map.mp ha
    obtain rfl := Option.some.inj hd'
    exact howner

/-- What a run comes to is on a version of a document of the job's owner. -/
theorem run_toward : (run jobId).Abides (.toward z) fun o => ∃ v ∈ z.versions, v.id = o.versionId ∧
    ∃ ownerId, z.ownerOf v.documentId = some ownerId ∧ z.HasJobOf jobId ownerId := by
  have hchange (now : String) (c : Jobs.Change) : (guarded jobId (c.statement jobId now)).Keeps
      z.KeepsFor := (Call.serves_artifacts Store.KeepsFor.of_same).change jobId now c fun _ => trivial
  have hgenerates : Generates (Dialogue.toward z).issues jobId :=
    { running := fun now => hchange now .running
      completed := fun now result => hchange now (.completed result)
      failed := fun now message => hchange now (.failed message)
      note := (Call.serves_artifacts Store.KeepsFor.of_same).note jobId }
  refine run_abides trivial hgenerates find_fair fun job hjob htype => ?_
  refine (generate_abides (R := fun p v => v ∈ z.versions ∧ v.id = p.versionId) (fun p hp => ?_)
    fun p v hp hv => ?_).mono fun o ho => ?_
  · refine .transact ((Versions.find_readOnly _).keeps _) fun s hs => ?_
    refine wp_of_run (Versions.find_run p.versionId s) fun v hv => ?_
    exact ⟨hs.versions v (List.mem_of_find?_eq_some hv), by simpa using List.find?_some hv⟩
  · exact getOrGenerate_toward (hjob.entitled htype p hp v hv.1 hv.2) v.joinedText p.questions
  · obtain ⟨p, v, hp, hv, hid⟩ := ho
    exact ⟨v, hv.1, hid.symm, job.ownerId, hjob.entitled htype p hp v hv.1 hv.2, hjob.owner⟩

end GenerationJob

theorem Call.flow_toward (z : Store) (c : Call) : c.flow.Abides (.toward z) fun _ => True := by
  by_cases hc : ∃ jobId, c = .generate jobId
  · obtain ⟨jobId, rfl⟩ := hc
    exact GenerationJob.run_toward.ignored
  · refine .of_issues (P := fun _ _ t => t.Keeps z.KeepsFor) ?_ (fun ht => ht) fun _ => trivial
    exact c.flow_issues (serves_artifacts Store.KeepsFor.of_same) (fun _ _ => trivial)
      fun jobId h => absurd ⟨jobId, h⟩ hc

/-! ### One run among calls -/

namespace Scene
variable {α : Type} {z : Store} {x y : Scene × Flow α}

/-- A step of a run and of calls, at a moment at which no generation job wants a version, of those in
`z`, of a document that is not its owner's. -/
def Fairly (z : Store) (x y : Scene × Flow α) : Prop :=
  Beside x y ∧ ∀ r ∈ x.1.store.jobs, z.Entitles r

/-- What is there at a moment on the way is there at the end. -/
theorem Knows.hasJobOf (hknows : Knows Store.Sound x) (h : Relation.ReflTransGen Beside x y)
    {r : JobRow} (hr : r ∈ x.1.store.jobs) : y.1.store.HasJobOf r.id r.ownerId := by
  have hjob : x.1.store.Sound ∧ x.1.store.HasJobOf r.id r.ownerId :=
    ⟨hknows.store, r, hr, rfl, rfl⟩
  exact ((hknows.with hjob).lasts (Store.hasJobOf_unharmed r.id r.ownerId) h).store.2

/-- Whatever takes turns, the owners of documents have the questions. -/
theorem Fairly.heeds {Q : α → Prop} (hz : y.1.store = z) (h : Relation.ReflTransGen (Fairly z) x y)
    (hknows : Knows Store.Sound x) (hx : Heeds (.toward z) Q z.KeepsFor x) :
    Heeds (.toward z) Q z.KeepsFor y := by
  induction h using Relation.ReflTransGen.head_induction_on with
  | refl => exact hx
  | @head x x' hstep hrest ih =>
    have hsteps : Relation.ReflTransGen Beside x y :=
      .head hstep.1 (Relation.ReflTransGen.mono (fun _ _ h => h.1) _ _ hrest)
    have htoward : z.Toward x.1.store :=
      { entitled := hstep.2
        versions := fun v hv =>
          hz ▸ ((hknows.with hv).lasts (Store.mem_versions_unharmed v) hsteps).store
        jobs := fun r hr => hz ▸ hknows.hasJobOf hsteps hr }
    refine ih (hstep.1.knows Store.Sound.unharmed hknows) ?_
    exact hstep.1.heeds (Call.flow_toward z) (fun ht => ht)
      (fun hb => ⟨Effect.gives_of_answers htoward hb, trivial⟩) hx

/-- Where one owner has all jobs, and all documents with versions, every step is fair. -/
theorem Fairly.of_beside {ownerId : String} (hz : y.1.store = z)
    (hjobs : ∀ r ∈ z.jobs, r.ownerId = ownerId)
    (hversions : ∀ v ∈ z.versions, z.ownerOf v.documentId = some ownerId)
    (hknows : Knows Store.Sound x) (h : Relation.ReflTransGen Beside x y) :
    Relation.ReflTransGen (Fairly z) x y := by
  induction h using Relation.ReflTransGen.head_induction_on with
  | refl => exact .refl
  | @head x x' hstep hrest ih =>
    refine .head ⟨hstep, fun r hr _ v hv _ => ?_⟩ (ih (hstep.knows Store.Sound.unharmed hknows))
    obtain ⟨r', hr', -, howner⟩ := hz ▸ hknows.hasJobOf (.head hstep hrest) hr
    rw [hversions v hv, ← howner, hjobs r' hr']

theorem knows_start {f : Flow α} (hf : f.Issues Issued) : Knows Store.Sound (start, f) where
  store := .empty
  calls := by simp [start]
  run := .of_issues hf (fun ht => ht) fun _ => trivial

end Scene

/-- Who publishes a document owns it. -/
theorem Publication.ownerOf {s s' : Store} {d owner : String} {o : PublishOptions} {now : Instant}
    {p : Published} (h : Publication s s' d owner o now p) (hs : s.Sound) :
    s'.ownerOf d = some owner := by
  obtain ⟨above, x, below, document, hbefore, howned, -, -, hafter⟩ := h.document
  have hids : (s'.documents.map (·.id)).Nodup := by
    have hold := hs.documentIds
    rw [hbefore] at hold
    rw [hafter]
    simpa [DocumentRow.asPublished] using hold
  have hmem : x.asPublished p.version o.title now.timestamp ∈ s'.documents := by simp [hafter]
  have hfound := find?_key hids hmem
  have hxid : (x.asPublished p.version o.title now.timestamp).id = d := howned.id
  rw [hxid] at hfound
  unfold Store.ownerOf
  rw [hfound]
  exact congrArg some howned.ownerId

/-- A job that a publication adds wants a version of its owner's document. -/
theorem Publication.entitles {s s' : Store} {d owner : String} {o : PublishOptions} {now : Instant}
    {p : Published} (h : Publication s s' d owner o now p) (hs : s.Sound) :
    ∀ r ∈ s'.jobs, r ∈ s.jobs ∨ s'.Entitles r := by
  intro r hr
  have hjobs := h.jobs
  unfold PublishOptions.Queues at hjobs
  split at hjobs
  case isFalse => exact .inl (hjobs.1 ▸ hr)
  case isTrue =>
    obtain ⟨queued, hqueued, -, hgenerates⟩ := hjobs
    rw [hqueued] at hr
    refine (List.mem_append.mp hr).imp_right fun hnew => ?_
    obtain rfl := List.mem_singleton.mp hnew
    intro _ v hv ⟨j, task, hj, hread, hid⟩
    obtain ⟨j', hj', hread'⟩ := hgenerates.params
    obtain rfl := Except.ok.inj (hj.symm.trans hj')
    obtain rfl := Except.ok.inj (hread.symm.trans hread')
    obtain ⟨pages, -, hversions⟩ := h.version
    rw [hversions] at hv
    rcases List.mem_append.mp hv with hold | hnew
    · exact absurd hid.symm (h.newId v hold)
    · obtain rfl := List.mem_singleton.mp hnew
      rw [hgenerates.ownerId]
      exact h.ownerOf hs

/-- Questions go to the owners of documents. Let a run of a generation job and any calls take turns,
from an empty store on, and let no generation job ever want a version of a document that is not its
owner's. Then every artifact on a document belongs to the document's owner; if the run returns
questions, these are on a version of a document of the job's owner; and a publication, whoever's it
is, adds no job that wants anything else. -/
theorem GenerationJob.questions_go_to_owners {jobId : String} {s : Store} {flows : List (Flow Unit)}
    {f : Flow (Except PipelineError GenerationOutcome)}
    (h : Relation.ReflTransGen (Scene.Fairly s) (Scene.start, (run jobId).run) (⟨s, flows⟩, f)) :
    (∀ a ∈ s.artifacts, ∀ d, a.documentId = some d → s.ownerOf d = some a.ownerId) ∧
      (∀ o, f = .done (.ok o) → ∃ r ∈ s.jobs, r.id = jobId ∧
        ∃ v ∈ s.versions, v.id = o.versionId ∧ s.ownerOf v.documentId = some r.ownerId) ∧
      ∀ s' d owner o now p, Publication s s' d owner o now p →
        ∀ r ∈ s'.jobs, r ∈ s.jobs ∨ s'.Entitles r := by
  have hstart := Scene.knows_start (Run.Issues.iff_run.mp (run_issued jobId))
  have hheeds := Scene.Fairly.heeds (y := (⟨s, flows⟩, f)) rfl h hstart
    ⟨by simp [Scene.start, Store.empty, Store.KeepsFor], by simp [Scene.start], run_toward.run⟩
  refine ⟨hheeds.store, ?_, fun s' d owner o now p hpublished => hpublished.entitles ?_⟩
  · rintro o rfl
    obtain ⟨v, hv, hid, ownerId, howner, r, hr, hjob, rfl⟩ := Flow.Abides.done.mp hheeds.run o rfl
    exact ⟨r, hr, hjob, v, hv, hid, howner⟩
  · exact (hstart.lasts Store.Sound.unharmed
      (Relation.ReflTransGen.mono (fun _ _ hstep => hstep.1) _ _ h)).store

/-! ### A job on a version -/

namespace Commissioned
open Surroundings (free)

def now : Instant := Background.start

def options : PublishOptions := ⟨none, none, false, .standard⟩

def publishing : Txn PipelineError Published :=
  Pipeline.publishDraft "d" "o" options ⟨"v", "g"⟩ now .minute

def version : Version := ⟨"v", "d", 1, [⟨1, "a"⟩], "o", now.timestamp, none⟩

/-- The draft is published by its owner, and no job is queued. -/
def published : Store :=
  { Attended.draft with
    versions := [version]
    documents := Attended.draft.documents.map (·.asPublished 1 none now.timestamp) }

def question : Question := ⟨"Why?", [], "So", none⟩

def outcome : GenerationOutcome := ⟨"h", "v", false, [question]⟩

section
variable (ownerId : String)

/-- A job of some owner on the version. -/
def job : NewJob := Pipeline.generationJob ownerId "v" .standard

def queued : Store :=
  { published with jobs := published.jobs ++ [(job ownerId).row "h" now .minute] }

def running : Store := ((Ledger.running "h" now).run (queued ownerId)).2

def kept : Store :=
  ((Artifacts.insertAll (QuestionCache.artifactsOf ownerId (some "d") (Fingerprint.of "a" .standard)
    .standard now.timestamp [("q", question)])).run (running ownerId)).2

def completed : Store :=
  ((Ledger.completed "h" (some (GenerationJob.summary outcome)) now).run (kept ownerId)).2

def noted : Store :=
  ((Jobs.insertEvent "h" .info (some "generate")
    s!"Generated {outcome.questions.length} questions" none now.timestamp).run (completed ownerId)).2

end

theorem snapshot_run :
    (Pipeline.snapshot "d").run Attended.draft = (.ok [⟨1, "a"⟩], Attended.draft) := by
  have hsorted : (Attended.draft.pages.filter (·.documentId == "d")).mergeSort
      (fun a b => a.pageNo.le b.pageNo) = Attended.draft.pages := List.mergeSort_singleton _
  rw [← wp_eq_run]
  unfold Pipeline.snapshot Pages.list
  rw [wp_bind, wp_bind, wp_store]
  dsimp only
  rw [hsorted]
  rfl

theorem publishing_run : publishing.run Attended.draft = (.ok ⟨"d", "v", 1, none⟩, published) := by
  obtain ⟨document, hdraft, hactive⟩ : ∃ document : Document,
      (Pipeline.draftToPublish "d" "o").run Attended.draft = (.ok document, Attended.draft) ∧
        document.activeVersion = 0 := ⟨_, rfl, rfl⟩
  rw [← wp_eq_run]
  unfold publishing Pipeline.publishDraft
  rw [wp_bind]
  refine wp_of_run hdraft ?_
  rw [wp_bind, wp_widen, hactive]
  exact wp_of_run snapshot_run rfl

theorem published_reachable : published.Reachable :=
  Attended.draft_reachable.run (.publish ⟨.minute⟩ "d" "o" options)
    ⟨now, (Attended.draft, ()), ⟨rfl, trivial⟩, "v", (Attended.draft, ()), ⟨rfl, trivial⟩,
      "g", (Attended.draft, ()), ⟨rfl, trivial⟩, _, (published, ()), ⟨publishing_run, rfl⟩, rfl, rfl⟩

theorem queued_reachable (ownerId : String) : (queued ownerId).Reachable :=
  published_reachable.run (.enqueue ⟨.minute⟩ (job ownerId))
    ⟨"h", (published, ()), ⟨rfl, trivial⟩, now, (published, ()), ⟨rfl, trivial⟩,
      .ok (), (queued ownerId, ()), ⟨rfl, rfl⟩, rfl, rfl⟩

/-- The job is run, and questions are generated. -/
theorem run_runs (ownerId : String) :
    free.Runs (GenerationJob.run "h").run (queued ownerId, ()) (.ok outcome) (noted ownerId, ()) :=
  ⟨_, (queued ownerId, ()), ⟨rfl, rfl⟩, now, (queued ownerId, ()), ⟨rfl, trivial⟩,
    _, (running ownerId, ()), ⟨rfl, rfl⟩,
    _, (running ownerId, ()), ⟨Versions.find_run "v" (running ownerId), rfl⟩,
    _, (running ownerId, ()), ⟨rfl, rfl⟩, .ok [question], (running ownerId, ()), ⟨rfl, trivial⟩,
    now, (running ownerId, ()), ⟨rfl, trivial⟩, "q", (running ownerId, ()), ⟨rfl, trivial⟩,
    _, (kept ownerId, ()), ⟨rfl, rfl⟩, now, (kept ownerId, ()), ⟨rfl, trivial⟩,
    _, (completed ownerId, ()), ⟨rfl, rfl⟩, now, (completed ownerId, ()), ⟨rfl, trivial⟩,
    _, (noted ownerId, ()), ⟨rfl, rfl⟩, rfl, rfl⟩

theorem path (ownerId : String) : ∃ flows, Relation.ReflTransGen Scene.Beside
    (Scene.start, (GenerationJob.run "h").run) (⟨noted ownerId, flows⟩, .done (.ok outcome)) := by
  obtain ⟨flows, hqueued⟩ := queued_reachable ownerId
  exact ⟨flows, (Scene.Beside.of_steps _ hqueued).trans (Scene.Beside.of_runs flows (run_runs ownerId))⟩

theorem noted_jobs (ownerId : String) :
    (noted ownerId).jobs.map (fun r => (r.id, r.ownerId)) = [("j", "o"), ("h", ownerId)] := rfl

theorem noted_artifacts (ownerId : String) :
    (noted ownerId).artifacts.map (fun a => (a.ownerId, a.documentId)) = [(ownerId, some "d")] := rfl

end Commissioned

/-- The owner of the document has a job on the version, and gets the questions. -/
theorem GenerationJob.questions_go_to_owners_commissioned : ∃ flows,
    Relation.ReflTransGen (Scene.Fairly (Commissioned.noted "o")) (Scene.start, (run "h").run)
      (⟨Commissioned.noted "o", flows⟩, .done (.ok Commissioned.outcome)) ∧
      (∀ a ∈ (Commissioned.noted "o").artifacts, ∀ d, a.documentId = some d →
        (Commissioned.noted "o").ownerOf d = some a.ownerId) ∧
      ∃ r ∈ (Commissioned.noted "o").jobs, r.id = "h" ∧ ∃ v ∈ (Commissioned.noted "o").versions,
        v.id = "v" ∧ (Commissioned.noted "o").ownerOf v.documentId = some r.ownerId := by
  obtain ⟨flows, hpath⟩ := Commissioned.path "o"
  have hjobs : ∀ r ∈ (Commissioned.noted "o").jobs, r.ownerId = "o" := by
    intro r hr
    have hmem := List.mem_map_of_mem (f := fun r => (r.id, r.ownerId)) hr
    simp only [Commissioned.noted_jobs, List.mem_cons, Prod.mk.injEq, List.not_mem_nil,
      or_false] at hmem
    exact hmem.elim And.right And.right
  have hversions : ∀ v ∈ (Commissioned.noted "o").versions,
      (Commissioned.noted "o").ownerOf v.documentId = some "o" := by
    intro v hv
    obtain rfl : v = Commissioned.version := List.mem_singleton.mp hv
    rfl
  have hfair := Scene.Fairly.of_beside rfl hjobs hversions
    (Scene.knows_start (Run.Issues.iff_run.mp (run_issued "h"))) hpath
  obtain ⟨hartifacts, hresult, -⟩ := questions_go_to_owners hfair
  exact ⟨flows, hfair, hartifacts, hresult _ rfl⟩

/-- Somebody else has a job on the version, and gets the questions, too: they are returned, and kept
with the document for an owner who is not the document's. -/
theorem GenerationJob.questions_go_to_strangers : ∃ flows,
    Relation.ReflTransGen Scene.Beside (Scene.start, (run "h").run)
      (⟨Commissioned.noted "x", flows⟩, .done (.ok Commissioned.outcome)) ∧
      (Commissioned.noted "x").ownerOf "d" = some "o" ∧
      (∃ a ∈ (Commissioned.noted "x").artifacts, a.documentId = some "d" ∧ a.ownerId = "x") ∧
      (∀ v ∈ (Commissioned.noted "x").versions, v.id = Commissioned.outcome.versionId →
        v.documentId = "d") ∧
      ∀ r ∈ (Commissioned.noted "x").jobs, r.id = "h" → r.ownerId = "x" := by
  obtain ⟨flows, hpath⟩ := Commissioned.path "x"
  refine ⟨flows, hpath, rfl, ?_, fun v hv _ => ?_, fun r hr hid => ?_⟩
  · have hmem : ("x", some "d") ∈ (Commissioned.noted "x").artifacts.map
        fun a => (a.ownerId, a.documentId) := by
      rw [Commissioned.noted_artifacts]
      exact List.mem_singleton_self _
    obtain ⟨a, ha, hpair⟩ := List.mem_map.mp hmem
    exact ⟨a, ha, congrArg Prod.snd hpair, congrArg Prod.fst hpair⟩
  · obtain rfl : v = Commissioned.version := List.mem_singleton.mp hv
    rfl
  · have hmem := List.mem_map_of_mem (f := fun r => (r.id, r.ownerId)) hr
    rw [Commissioned.noted_jobs, hid] at hmem
    simpa using hmem

end Quire
