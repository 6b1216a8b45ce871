import Mathlib.Data.Fintype.EquivFin
import Quire.Pipeline.Publish
import Quire.Proofs.Flow.Runs
import Quire.Proofs.Job.Lock
import Quire.Proofs.Question.Params
import Quire.Proofs.Store.Listing
import Quire.Proofs.Store.Reading
import Quire.Proofs.Store.Soundness
import Quire.Proofs.Store.Versions

/-! Publishing a draft makes it a version.

Whoever may publish does so, and nobody else does: the one who may not is told the first reason
why, and nothing has changed (`Store.Refuses`). A publication changes the versions, the document
and the jobs together (`Publication`), and nothing besides. Versions that no document refers to
may be there; they only push the number up. -/
namespace Quire
open Txn

/-! ### Who may publish -/

/-- A store that obeys the schema, with documents and pages that can be read and with room for
another version. -/
structure Store.Intact (s : Store) : Prop extends s.Sound where
  keyed : s.Keyed
  legible : ∀ d, s.Legible d
  documents : ∀ r ∈ s.documents, ∃ document, r.read = .ok document ∧
    document.activeVersion.toNat < 2 ^ 32 - 1
  versions : ∀ v ∈ s.versions, v.version.toNat < 2 ^ 32 - 1

/-- If questions are wanted, their number is allowed. -/
def PublishOptions.Allowed (o : PublishOptions) : Prop :=
  o.generates = true → 1 ≤ o.questions.count ∧ o.questions.count ≤ 50

/-- The row of a document of somebody, with a status. -/
structure DocumentRow.Owned (r : DocumentRow) (d owner : String) (status : DocumentStatus) :
    Prop where
  id : r.id = d
  ownerId : r.ownerId = owner
  status : r.status = status

structure Store.MayPublish (s : Store) (d owner : String) (o : PublishOptions) : Prop where
  allowed : o.Allowed
  draft : ∃ r ∈ s.documents, r.Owned d owner .draft

/-- Why somebody may not publish, in the order in which the reasons are told. -/
inductive Store.Refuses (s : Store) (d owner : String) (o : PublishOptions) : PipelineError → Prop
  | count : ¬ o.Allowed → s.Refuses d owner o (.precondition (.generation (.invalidParams
      s!"count must be between 1 and 50, got {o.questions.count.toNat}")))
  | missing : o.Allowed → (∀ r ∈ s.documents, r.id ≠ d) →
      s.Refuses d owner o (.notFound .document d)
  | foreign (r : DocumentRow) : o.Allowed → r ∈ s.documents → r.id = d → r.ownerId ≠ owner →
      s.Refuses d owner o .forbidden
  | published (r : DocumentRow) : o.Allowed → r ∈ s.documents → r.Owned d owner .published →
      s.Refuses d owner o (.conflict .alreadyPublished)
  | unready (r : DocumentRow) (status : DocumentStatus) : o.Allowed → r ∈ s.documents →
      r.Owned d owner status → status ≠ .draft → status ≠ .published →
      s.Refuses d owner o (.precondition (.notPublishable status))

namespace Store.Refuses
variable {s : Store} {d owner : String} {o : PublishOptions} {e : PipelineError}

/-- Only the one who may not publish is refused. -/
theorem not_mayPublish (hs : s.Sound) (h : s.Refuses d owner o e) : ¬ s.MayPublish d owner o := by
  rintro ⟨hallowed, r', hr', hid', howner', hdraft⟩
  have hsame : ∀ {r}, r ∈ s.documents → r.id = d → r' = r := fun hr hid =>
    hs.document_unique hr' hr (hid'.trans hid.symm)
  cases h with
  | count hnot => exact hnot hallowed
  | missing _ hnone => exact hnone r' hr' hid'
  | foreign r _ hr hid hforeign => exact hforeign (hsame hr hid ▸ howner')
  | published r _ hr h =>
    rw [hsame hr h.id, h.status] at hdraft
    cases hdraft
  | unready r status _ hr h hnot _ =>
    rw [hsame hr h.id, h.status] at hdraft
    exact hnot hdraft

end Store.Refuses

/-! ### What a publication is -/

/-- The texts of a document that count, each page once and in the order of the pages. -/
structure Store.Froze (s : Store) (d : String) (pages : List SnapshotPage) : Prop where
  ascending : (pages.map (·.pageNo)).Pairwise (· < ·)
  texts : ∀ page, page ∈ pages ↔ ∃ r ∈ s.pages, r.documentId = d ∧
    r.pageNo = .ofNat page.pageNo.toNat ∧
    page.text = (r.editedText <|> r.cleanText <|> r.rawText).getD ""

/-- What is listed of a document are the texts that count. -/
theorem Store.froze_of_list {s : Store} {d : String} {listed : List Page} (hkeyed : s.Keyed)
    (hlist : ((Pages.list d).run s).1 = .ok listed) :
    s.Froze d (listed.map fun page => ⟨page.pageNo, page.finalText⟩) := by
  refine ⟨?_, fun page => ?_⟩
  · rw [List.map_map]
    exact Pages.ascending_of_list hlist hkeyed
  · rw [List.mem_map]
    constructor
    · rintro ⟨shown, hshown, rfl⟩
      obtain ⟨r, hr, hread⟩ := (Pages.mem_iff_of_list hlist).mp hshown
      obtain ⟨hmem, hdoc⟩ := List.mem_filter.mp hr
      exact ⟨r, hmem, beq_iff_eq.mp hdoc, PageRow.pageNo_of_read hread,
        PageRow.finalText_of_read hread⟩
    · rintro ⟨r, hmem, hdoc, hno, htext⟩
      have hr : r ∈ s.pagesOf d := List.mem_filter.mpr ⟨hmem, beq_iff_eq.mpr hdoc⟩
      obtain ⟨shown, hread⟩ := Pages.legible_of_list hlist r hr
      have hsame : shown.pageNo = page.pageNo :=
        Cell.ofNat_toNat_inj ((PageRow.pageNo_of_read hread).symm.trans hno)
      refine ⟨shown, (Pages.mem_iff_of_list hlist).mpr ⟨r, hr, hread⟩, ?_⟩
      rw [hsame, PageRow.finalText_of_read hread, ← htext]

/-- A queued job that generates questions on a version, as wanted. -/
structure JobRow.Generates (r : JobRow) (owner versionId : String) (questions : QuestionParams) :
    Prop where
  ownerId : r.ownerId = owner
  documentId : r.documentId = none
  jobType : r.jobType = Label.word JobType.generateQuestions
  status : r.status = .queued
  params : ∃ j, r.params.read = .ok j ∧
    Json.readValue GenerationJobParams.shape j = .ok ⟨versionId, questions⟩

/-- The jobs with the one that generates questions on a version, if that is wanted. -/
def PublishOptions.Queues (o : PublishOptions) (jobs jobs' : List JobRow)
    (owner versionId : String) (jobId : Option String) : Prop :=
  if o.generates then
    ∃ r : JobRow, jobs' = jobs ++ [r] ∧ jobId = some r.id ∧
      r.Generates owner versionId o.questions
  else jobs' = jobs ∧ jobId = none

section
variable {o : PublishOptions} {jobs : List JobRow} {owner versionId : String}

theorem PublishOptions.Queues.none (h : o.generates = false) :
    o.Queues jobs jobs owner versionId none := by
  unfold Queues
  rw [h]
  exact ⟨rfl, rfl⟩

theorem PublishOptions.Queues.one (h : o.generates = true) {r : JobRow}
    (hr : r.Generates owner versionId o.questions) :
    o.Queues jobs (jobs ++ [r]) owner versionId (some r.id) := by
  unfold Queues
  rw [h]
  exact ⟨r, rfl, rfl, hr⟩

end

/-- The row of a document that is published; its title stays unless another one is given. -/
def DocumentRow.asPublished (r : DocumentRow) (version : UInt32) (title : Option String)
    (now : String) : DocumentRow :=
  { r with
    status := .published
    activeVersion := .ofNat version.toNat
    title := title <|> r.title
    publishedAt := some now
    updatedAt := now }

/-- A draft was published: one more version, the document refers to it, and a job if wanted. -/
structure Publication (s s' : Store) (d owner : String) (o : PublishOptions) (now : Instant)
    (p : Published) : Prop where
  documentId : p.documentId = d
  version : ∃ pages, s.Froze d pages ∧ s'.versions =
    s.versions ++ [⟨p.versionId, d, p.version, pages, owner, now.timestamp, o.notes⟩]
  newId : ∀ v ∈ s.versions, v.id ≠ p.versionId
  higher : ∀ v ∈ s.versions, v.documentId = d → v.version < p.version
  document : ∃ above r below document, s.documents = above ++ r :: below ∧
    r.Owned d owner .draft ∧ r.read = .ok document ∧ document.activeVersion < p.version ∧
    s'.documents = above ++ r.asPublished p.version o.title now.timestamp :: below
  jobs : o.Queues s.jobs s'.jobs owner p.versionId p.generationJobId
  others : s' = { s with versions := s'.versions, documents := s'.documents, jobs := s'.jobs }

/-! ### The transaction -/

section Transaction
variable {α : Type} {s : Store} {d owner : String} {o : PublishOptions}

/-- Among documents with ids of their own, the one of an id is changed and no other. -/
theorem Documents.changeFrom_run {above below : List DocumentRow} {r : DocumentRow}
    {allowed : List DocumentStatus} {f : DocumentRow → DocumentRow} (hs : s.Sound)
    (hdocuments : s.documents = above ++ r :: below) (hstatus : r.status ∈ allowed) :
    (changeFrom r.id allowed f).run s =
      (.ok 1, { s with documents := above ++ f r :: below }) := by
  have hids := hs.documentIds
  have hr : r ∈ s.documents := by simp [hdocuments]
  have hallowed : allowed.contains r.status = true := List.contains_iff_mem.mpr hstatus
  have hone : s.documents.filter (fun b => b.id == r.id && allowed.contains b.status) = [r] := by
    rw [← List.filter_filter, List.filter_comm, filter_key hids hr, List.filter_singleton, hallowed]
    rfl
  rw [hdocuments] at hids
  have hchanged : changeWhere (fun b => b.id == r.id && allowed.contains b.status) f s.documents =
      above ++ f r :: below := by
    rw [hdocuments]
    refine changeWhere_key hids (fun b hb => ?_) ?_
    · exact beq_iff_eq.mp ((Bool.and_eq_true _ _).mp hb).1
    · rw [beq_self_eq_true, hallowed]
      rfl
  rw [← wp_eq_run]
  unfold changeFrom
  simp only [wp_bind, wp_store, wp_modify, wp_pure, hone, hchanged, List.length_singleton]

theorem Documents.markPublished_run {above below : List DocumentRow} {r : DocumentRow}
    (hs : s.Sound) (hdocuments : s.documents = above ++ r :: below) (hdraft : r.status = .draft)
    (version : UInt32) (title : Option String) (now : String) :
    (markPublished r.id version title now).run s =
      (.ok 1, { s with documents := above ++ r.asPublished version title now :: below }) :=
  changeFrom_run hs hdocuments (List.mem_singleton.mpr hdraft)

namespace Pipeline

/-- A draft of the one who asks is found; who may not publish is told why. -/
theorem draftToPublish_wp (hs : s.Intact) (hallowed : o.Allowed) :
    (draftToPublish d owner).wp
      (fun document s' => s' = s ∧ ∃ r ∈ s.documents, r.Owned d owner .draft ∧
        r.read = .ok document)
      (s.Refuses d owner o) s := by
  unfold draftToPublish ownDocument Documents.find
  simp only [wp_bind, wp_widen, wp_store]
  cases hfound : s.documents.find? (·.id == d) with
  | none =>
    rw [List.find?_eq_none] at hfound
    exact .missing hallowed (by simpa using hfound)
  | some r =>
    have hr := List.mem_of_find?_eq_some hfound
    have hid : r.id = d := by simpa using List.find?_some hfound
    obtain ⟨document, hread, -⟩ := hs.documents r hr
    have hshows := DocumentRow.shows_of_read hread
    simp only [wp_bind, hread, wp_ofExcept_ok, wp_pure, wp_require, beq_iff_eq,
      beq_eq_false_iff_ne]
    refine ⟨fun howner => ?_, fun hforeign => ?_⟩
    · have howned : r.Owned d owner document.status :=
        ⟨hid, hshows.ownerId ▸ howner, hshows.status.symm⟩
      split
      case h_1 hstatus => exact ⟨rfl, r, hr, hstatus ▸ howned, hread⟩
      case h_2 hstatus => exact .published r hallowed hr (hstatus ▸ howned)
      case h_3 hdraft hpublished => exact .unready r _ hallowed hr howned hdraft hpublished
    · exact .foreign r hallowed hr hid (hshows.ownerId ▸ hforeign)

/-- The texts of a document are read as they are. -/
theorem snapshot_run (hs : s.Intact) (d : String) :
    ∃ pages, (snapshot d).run s = (.ok pages, s) ∧ s.Froze d pages := by
  obtain ⟨listed, hrun⟩ := (hs.legible d).list_run
  have hlist : ((Pages.list d).run s).1 = .ok listed := congrArg Prod.fst hrun
  refine ⟨listed.map fun page => ⟨page.pageNo, page.finalText⟩, ?_,
    Store.froze_of_list hs.keyed hlist⟩
  rw [← wp_eq_run]
  unfold snapshot
  rw [wp_bind]
  exact wp_of_run hrun rfl

section
variable (owner : String) (questions : QuestionParams) (ids : PublishIds) (now : Instant)
  (heartbeat : Respite)

/-- What the job reads is what it was given. -/
theorem generationJob_generates :
    ((generationJob owner ids.version questions).row ids.job now heartbeat).Generates owner
      ids.version questions where
  ownerId := rfl
  documentId := rfl
  jobType := rfl
  status := rfl
  params := ⟨GenerationJobParams.toJson ⟨ids.version, questions⟩,
    StoredJson.read_ofJson (GenerationJobParams.isDurable_toJson _),
    GenerationJobParams.read_toJson ⟨ids.version, questions⟩⟩

/-- A job without a document clashes with none. -/
theorem queueGeneration_run (hid : s.hasJob ids.job = false) :
    (queueGeneration ids owner questions now heartbeat).run s = (.ok ids.job, { s with
      jobs := s.jobs ++ [(generationJob owner ids.version questions).row ids.job now heartbeat] }) := by
  have hclash : s.jobs.any
      ((generationJob owner ids.version questions).row ids.job now heartbeat).clashes = false := by
    simp [JobRow.clashes, NewJob.row, Jobs.rowOf, NewJob.toJob, generationJob]
  rw [← wp_eq_run]
  unfold queueGeneration
  rw [wp_bind]
  exact wp_of_run (Jobs.insertRow_run hclash hid rfl) rfl

end

/-- What follows goes on with the job that was queued, if that was wanted. -/
theorem queued_wp {ids : PublishIds} (hid : s.hasJob ids.job = false) (now : Instant)
    (heartbeat : Respite) {k : Option String → Txn PipelineError α} {Q : α → Store → Prop}
    {E : PipelineError → Prop}
    (h : ∀ jobs jobId, o.Queues s.jobs jobs owner ids.version jobId →
      (k jobId).wp Q E { s with jobs := jobs }) :
    (if o.generates = true then
      (some <$> (queueGeneration ids owner o.questions now heartbeat).widen) >>= k
    else pure none >>= k).wp Q E s := by
  cases hgenerates : o.generates with
  | true =>
    rw [if_pos rfl, wp_bind, wp_map, wp_widen]
    refine wp_of_run (queueGeneration_run owner o.questions ids now heartbeat hid) (h _ _ ?_)
    exact .one hgenerates (generationJob_generates owner o.questions ids now heartbeat)
  | false => exact h s.jobs none (.none hgenerates)

/-- Who may publish makes a version, and who may not is told why. -/
theorem publishDraft_wp (hs : s.Intact) (hallowed : o.Allowed) {ids : PublishIds}
    (hversion : ∀ v ∈ s.versions, v.id ≠ ids.version) (hjob : s.hasJob ids.job = false)
    (now : Instant) (heartbeat : Respite) :
    (publishDraft d owner o ids now heartbeat).wp
      (fun p s' => s.MayPublish d owner o ∧ Publication s s' d owner o now p)
      (s.Refuses d owner o) s := by
  unfold publishDraft
  rw [wp_bind]
  refine wp_mono (draftToPublish_wp hs hallowed) ?_ fun _ h => h
  rintro document s' ⟨rfl, r, hr, howned, hread⟩
  obtain rfl := howned.id
  obtain ⟨pages, hpages, hfroze⟩ := snapshot_run hs r.id
  obtain ⟨above, below, hdocuments⟩ := List.append_of_mem hr
  obtain ⟨_, hread', hactive⟩ := hs.documents r hr
  obtain rfl := Except.ok.inj (hread'.symm.trans hread)
  obtain ⟨number, hnumber, hlater, hhigher⟩ := Versions.next_run (d := r.id) hs.versions hactive
  let v : Version := ⟨ids.version, r.id, number, pages, owner, now.timestamp, o.notes⟩
  have hinsert : (Versions.insert v).run s' = (.ok (), { s' with versions := s'.versions ++ [v] }) :=
    Versions.insert_run (UInt32.lt_of_le_of_lt UInt32.zero_le hlater) hhigher hversion
      (Store.hasDocument_iff.mpr ⟨r, hr, rfl⟩)
  have hsound : ({ s' with versions := s'.versions ++ [v] } : Store).Sound :=
    hs.toSound.of_same rfl rfl
  have hpublished := Documents.markPublished_run hsound hdocuments howned.status number o.title
    now.timestamp
  rw [wp_bind, wp_widen]
  refine wp_of_run hpages ?_
  rw [wp_bind, wp_widen]
  refine wp_of_run hnumber ?_
  rw [wp_bind, wp_widen]
  refine wp_of_run hinsert ?_
  rw [wp_bind, wp_widen]
  refine wp_of_run hpublished ?_
  rw [wp_bind, wp_require]
  refine ⟨fun _ => ?_, fun h => nomatch h⟩
  refine queued_wp (k := fun jobId => pure (Published.mk r.id ids.version number jobId)) ?_ now
    heartbeat fun jobs jobId hjobs => ?_
  -- Neither the version nor the document has touched the jobs.
  · exact hjob
  · exact ⟨⟨hallowed, r, hr, howned⟩,
      { documentId := rfl
        version := ⟨pages, hfroze, rfl⟩
        newId := hversion
        higher := hhigher
        document := ⟨above, r, below, _, hdocuments, howned, hread, hlater, rfl⟩
        jobs := hjobs
        others := rfl }⟩

end Pipeline
end Transaction

/-! ### The operation -/

namespace Surroundings

/-- An identifier is one that no version and no job has; what the clock tells is remembered. -/
def assigning (s : Store) : Surroundings (List Instant) where
  allows
    | .clock, told, now, told' => told' = told ++ [now]
    | .freshId, told, id, told' =>
      (∀ v ∈ s.versions, v.id ≠ id) ∧ s.hasJob id = false ∧ told' = told
    | _, told, _, told' => told' = told

theorem assigning_live (s : Store) : (assigning s).Live := by
  refine Live.of_allows fun op told => ?_
  obtain ⟨b⟩ := op.nonempty
  cases op with
  | clock => exact ⟨b, told ++ [b], rfl⟩
  | freshId =>
    obtain ⟨id, hid⟩ := Infinite.exists_notMem_finset
      (s.versions.map (·.id) ++ s.jobs.map (·.id)).toFinset
    simp only [List.mem_toFinset, List.mem_append, List.mem_map, not_or, not_exists, not_and] at hid
    refine ⟨id, told, hid.1, ?_, rfl⟩
    simpa [Store.hasJob] using hid.2
  | _ => exact ⟨b, told, rfl⟩

end Surroundings

namespace Pipeline
variable {s : Store} {d owner : String} {o : PublishOptions}
open Surroundings

/-- From the store the run leads to a publication at the time of the clock, by one who may publish,
or to a reason against it. -/
def Publishes (s : Store) (d owner : String) (o : PublishOptions)
    (r : Run PipelineError Published) : Prop :=
  Run.Leads ((assigning s).keeping fun _ => True)
    (fun p m => s.MayPublish d owner o ∧ ∃ now, m.2 = [now] ∧ Publication s m.1 d owner o now p)
    (fun e m => s.Refuses d owner o e ∧ m.1 = s) r (s, [])

theorem publish_publishes (hs : s.Intact) (l : Ledger) :
    Publishes s d owner o (publish l d owner o) := by
  have hdraft (hallowed : o.Allowed) : Publishes s d owner o (do
      let now ← Run.clock
      let ids : PublishIds := ⟨← Run.freshId, ← Run.freshId⟩
      Run.transact (publishDraft d owner o ids now l.heartbeat)) := by
    refine leads_ask rfl ?_
    rintro now _ rfl
    refine leads_ask rfl ?_
    rintro version _ ⟨hversion, -, rfl⟩
    refine leads_ask rfl ?_
    rintro job _ ⟨-, hjob, rfl⟩
    refine (Run.Leads.transact _).mpr ((asking_transact _).mpr ?_)
    refine wp_mono (publishDraft_wp hs hallowed hversion hjob now l.heartbeat) ?_ ?_
    · exact fun p s' h => ⟨fun _ => trivial, h.1, now, rfl, h.2⟩
    · exact fun e he => ⟨he, rfl⟩
  unfold publish
  dsimp only
  split
  case isTrue hgenerates =>
    refine (Run.Leads.bind _ _).mpr ?_
    by_cases hcount : 1 ≤ o.questions.count ∧ o.questions.count ≤ 50
    · rw [QuestionParams.check_ok hcount]
      exact hdraft fun _ => hcount
    · rw [QuestionParams.check_error hcount]
      exact ⟨.count fun hallowed => hcount (hallowed hgenerates), rfl⟩
  case isFalse hnone => exact hdraft fun hgenerates => absurd hgenerates hnone

end Pipeline

/-- Publishing comes to an end. It succeeds exactly for the owner of a draft who wants no questions
or an allowed number of them; any other is told the first reason against it, and the store is as it
was. A success is a publication at the time of the clock: one more version, of a number above all
that are in use and with the texts that count, the document that refers to it, and a job if wanted. -/
theorem publish_makes_version {s : Store} (hs : s.Intact) (l : Ledger) (d owner : String)
    (o : PublishOptions) :
    (∃ outcome m, (Surroundings.assigning s).Runs (Pipeline.publish l d owner o).run (s, [])
      outcome m) ∧
    ∀ outcome m, (Surroundings.assigning s).Runs (Pipeline.publish l d owner o).run (s, [])
        outcome m →
      ((∃ p, outcome = .ok p) ↔ s.MayPublish d owner o) ∧
      (∀ p, outcome = .ok p → ∃ now, m.2 = [now] ∧ Publication s m.1 d owner o now p) ∧
      ∀ e, outcome = .error e → s.Refuses d owner o e ∧ m.1 = s := by
  refine ⟨Surroundings.Live.runs (Surroundings.assigning_live s) _ _, fun outcome m hrun => ?_⟩
  have hleads := ((Surroundings.leads_iff _ _ trivial).mp (Pipeline.publish_publishes hs l)).2
    outcome m hrun
  cases outcome with
  | ok p =>
    obtain ⟨hmay, hpublication⟩ := hleads
    refine ⟨⟨fun _ => hmay, fun _ => ⟨p, rfl⟩⟩, fun p' hp => ?_, fun e he => ?_⟩
    · obtain rfl := Except.ok.inj hp
      exact hpublication
    · cases he
  | error e =>
    obtain ⟨hrefuses, hsame⟩ := hleads
    refine ⟨⟨fun ⟨p, hp⟩ => ?_, fun hmay => ?_⟩, fun p hp => ?_, fun e' he => ?_⟩
    · cases hp
    · exact absurd hmay (hrefuses.not_mayPublish hs.toSound)
    · cases hp
    · obtain rfl := Except.error.inj he
      exact ⟨hrefuses, hsame⟩

/-- A page that nobody has cleaned, perhaps edited. -/
def rawPage (id : Int) (number : UInt32) (raw edited : Option String) : PageRow where
  id := id
  documentId := "d"
  pageNo := .ofNat number.toNat
  rawText := raw
  cleanText := none
  editedText := edited
  source := .ocr
  wordCount := .ofNat 1
  cleaningModel := none
  cleaningVersion := none
  cleaningFailed := .ofFlag false
  changesSummary := none
  editedBy := none
  editedAt := none
  createdAt := "t"

/-- A draft that has been published once; a second version was left behind. -/
def leftBehind : Store :=
  { Store.empty with
    documents := [{
      id := "d", ownerId := "o", title := some "T", fileName := "a.pdf", storagePath := "o/a.pdf",
      mimeType := none, fileType := "pdf", fileSize := .ofNat 9, status := .draft,
      pageCount := .ofNat 2, activeVersion := .ofNat 1, publishedAt := none, createdAt := "t",
      updatedAt := "t" }]
    pages := [rawPage 1 2 (some "two") none, rawPage 2 1 (some "one") (some "uno")]
    versions := [⟨"v1", "d", 1, [], "o", "t", none⟩, ⟨"v7", "d", 7, [], "o", "t", none⟩] }

theorem leftBehind_intact : leftBehind.Intact where
  documentIds := List.nodup_singleton _
  jobIds := .nil
  apart := .nil
  refers _ h := nomatch h
  keyed := by simp [Store.Keyed, leftBehind, rawPage, Cell.ofNat]
  legible d r hr := by
    have hmem := (List.mem_filter.mp hr).1
    simp only [leftBehind, List.mem_cons, List.not_mem_nil, or_false] at hmem
    rcases hmem with rfl | rfl
    · exact ⟨_, rfl⟩
    · exact ⟨_, rfl⟩
  documents r hr := by
    obtain rfl := List.mem_singleton.mp hr
    exact ⟨_, rfl, by decide⟩
  versions v hv := by
    simp only [leftBehind, List.mem_cons, List.not_mem_nil, or_false] at hv
    rcases hv with rfl | rfl
    · decide
    · decide

/-- The version that was left behind pushes the number up, and the edited text counts. -/
theorem publish_makes_version_leftBehind :
    ∃ p m pages now, (Surroundings.assigning leftBehind).Runs
        (Pipeline.publish ⟨.minute⟩ "d" "o" .standard).run (leftBehind, []) (.ok p) m ∧
      7 < p.version ∧ ⟨1, "uno"⟩ ∈ pages ∧ m.1.versions = leftBehind.versions ++
        [⟨p.versionId, "d", p.version, pages, "o", Instant.timestamp now, none⟩] := by
  obtain ⟨⟨outcome, m, hrun⟩, hall⟩ :=
    publish_makes_version leftBehind_intact ⟨.minute⟩ "d" "o" .standard
  obtain ⟨hiff, hpublication, -⟩ := hall outcome m hrun
  obtain ⟨p, rfl⟩ := hiff.mpr ⟨fun _ => by decide, _, List.mem_singleton_self _, rfl, rfl, rfl⟩
  obtain ⟨now, -, hp⟩ := hpublication p rfl
  obtain ⟨pages, hfroze, hversions⟩ := hp.version
  refine ⟨p, m, pages, now, hrun, ?_, ?_, hversions⟩
  · exact hp.higher ⟨"v7", "d", 7, [], "o", "t", none⟩ (by simp [leftBehind]) rfl
  · exact (hfroze.texts _).mpr ⟨rawPage 2 1 (some "one") (some "uno"), by simp [leftBehind],
      rfl, rfl, rfl⟩

end Quire
