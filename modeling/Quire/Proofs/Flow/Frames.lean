import Quire.Proofs.Flow.Statements

/-! Properties of one table.

A statement writes one table, so it keeps whatever does not look at that one. A property of a
single table is therefore destroyed by no statement if the few statements on its own table keep
it. -/
namespace Quire
open Txn

variable {I : Store → Prop}

/-! ### What does not look at a table -/

section Jobs
variable (hI : ∀ s jobs, I s → I { s with jobs := jobs })
include hI

theorem Jobs.changeOpen_frame (id : String) (f : JobRow → JobRow) : (changeOpen id f).Keeps I :=
  Keeps.bind Keeps.store fun _ => Keeps.bind (Keeps.ofExcept _) fun jobs =>
    Keeps.bind (Keeps.modify fun s h => hI s jobs h) fun _ => Keeps.pure _

theorem Jobs.statement_frame (id now : String) (c : Change) : (c.statement id now).Keeps I := by
  rw [c.statement_eq]
  exact changeOpen_frame hI id _

theorem Jobs.insertRow_frame (r : JobRow) : (insertRow r).Keeps I :=
  Keeps.bind Keeps.store fun _ => Keeps.bind (Keeps.require _ _) fun _ =>
    Keeps.bind (Keeps.require _ _) fun _ => Keeps.bind (Keeps.require _ _) fun _ =>
      Keeps.modify fun s h => hI s _ h

end Jobs

theorem Jobs.insertEvent_frame
    (hI : ∀ s events last, I s → I { s with events := events, eventSeq := last })
    (jobId : String) (kind : EventKind) (step : Option String) (message : String)
    (trace : Option String) (now : String) :
    (insertEvent jobId kind step message trace now).Keeps I :=
  Keeps.bind Keeps.store fun _ => Keeps.bind (Keeps.require _ _) fun _ =>
    Keeps.modify fun s h => hI s _ _ h

section Documents
variable (hI : ∀ s documents, I s → I { s with documents := documents })
include hI

theorem Documents.changeFrom_frame (id : String) (allowed : List DocumentStatus)
    (f : DocumentRow → DocumentRow) : (changeFrom id allowed f).Keeps I :=
  Keeps.bind Keeps.store fun _ =>
    Keeps.bind (Keeps.modify fun s h => hI s _ h) fun _ => Keeps.pure _

theorem Documents.insertAs_frame (word : String) (d : Document) : (insertAs word d).Keeps I := by
  refine Keeps.bind (Keeps.ofExcept _) fun size => ?_
  dsimp only
  split
  · exact Keeps.fail _
  · exact Keeps.bind Keeps.store fun _ => Keeps.bind (Keeps.require _ _) fun _ =>
      Keeps.modify fun s h => hI s _ h

end Documents

section Pages
variable (hI : ∀ s pages last, I s → I { s with pages := pages, pageSeq := last })
include hI

theorem Pages.upsert_frame (documentId : String) (p : NewPage) (now : String) :
    (upsert documentId p now).Keeps I := by
  refine Keeps.bind (Keeps.require _ _) fun _ => Keeps.bind Keeps.store fun s => ?_
  dsimp only
  split
  · exact Keeps.modify fun s h => hI s _ _ h
  · exact Keeps.bind (Keeps.require _ _) fun _ => Keeps.modify fun s h => hI s _ _ h

theorem Pages.setEdit_frame (documentId : String) (pageNo : UInt32) (text : Option String)
    (editor now : String) : (setEdit documentId pageNo text editor now).Keeps I :=
  Keeps.bind Keeps.store fun _ =>
    Keeps.bind (Keeps.modify fun s h => hI s _ s.pageSeq h) fun _ => Keeps.pure _

theorem Pages.deleteAll_frame (documentId : String) : (deleteAll documentId).Keeps I :=
  Keeps.bind Keeps.store fun _ =>
    Keeps.bind (Keeps.modify fun s h => hI s _ s.pageSeq h) fun _ => Keeps.pure _

end Pages

theorem Versions.insert_frame (hI : ∀ s versions, I s → I { s with versions := versions })
    (v : Version) : (insert v).Keeps I :=
  Keeps.bind (Keeps.require _ _) fun _ => Keeps.bind Keeps.store fun _ =>
    Keeps.bind (Keeps.require _ _) fun _ => Keeps.bind (Keeps.require _ _) fun _ =>
      Keeps.bind (Keeps.require _ _) fun _ => Keeps.modify fun s h => hI s _ h

theorem Artifacts.insert_frame (hI : ∀ s artifacts, I s → I { s with artifacts := artifacts })
    (a : Artifact) : (insert a).Keeps I :=
  Keeps.bind Keeps.store fun _ => Keeps.bind (Keeps.require _ _) fun _ =>
    Keeps.modify fun s h => hI s _ h

/-! ### Properties of one table -/

namespace UnharmedFor
variable {S : String → Prop}

/-- A property that looks neither at documents nor at artifacts. -/
theorem of_frames (hdocuments : ∀ s documents, I s → I { s with documents := documents })
    (hversion : ∀ v, (Versions.insert v).Keeps I)
    (hartifacts : ∀ s artifacts, I s → I { s with artifacts := artifacts })
    (hstore : ∀ documentId p now, (Pages.upsert documentId p now).Keeps I)
    (hedit : ∀ documentId pageNo text editor now,
      (Pages.setEdit documentId pageNo text editor now).Keeps I)
    (hclear : ∀ documentId, (Pages.deleteAll documentId).Keeps I)
    (hnote : ∀ jobId kind step message trace now,
      (Jobs.insertEvent jobId kind step message trace now).Keeps I)
    (hqueue : ∀ r, (Jobs.insertRow r).Keeps I)
    (hchange : ∀ id now (c : Jobs.Change), (c.statement id now).Keeps I) : UnharmedFor S I where
  mark id now c _ := hchange id now c
  note := hnote
  storePage := hstore
  editPage := hedit
  addArtifact := Artifacts.insert_frame hartifacts
  register _ _ _ _ := Documents.insertAs_frame hdocuments _ _
  process _ _ := Documents.changeFrom_frame hdocuments _ _ _
  draft _ _ _ := Documents.changeFrom_frame hdocuments _ _ _
  fail _ _ := Documents.changeFrom_frame hdocuments _ _ _
  publish _ _ _ _ := Documents.changeFrom_frame hdocuments _ _ _
  enqueue _ _ _ _ := hqueue _
  change id now c _ := hchange id now c
  clearPages := hclear
  addVersion := hversion

/-- A property of the pages. -/
theorem of_pages (hsame : ∀ {s s'}, s'.pages = s.pages → I s → I s')
    (hstore : ∀ documentId p now, (Pages.upsert documentId p now).Keeps I)
    (hedit : ∀ documentId pageNo text editor now,
      (Pages.setEdit documentId pageNo text editor now).Keeps I)
    (hclear : ∀ documentId, (Pages.deleteAll documentId).Keeps I) : UnharmedFor S I := by
  have hjobs : ∀ s jobs, I s → I { s with jobs := jobs } := fun _ _ => hsame rfl
  exact of_frames (fun _ _ => hsame rfl) (Versions.insert_frame fun _ _ => hsame rfl)
    (fun _ _ => hsame rfl) hstore hedit hclear (Jobs.insertEvent_frame fun _ _ _ => hsame rfl)
    (Jobs.insertRow_frame hjobs) (Jobs.statement_frame hjobs)

/-- A property of the versions. -/
theorem of_versions (hsame : ∀ {s s'}, s'.versions = s.versions → I s → I s')
    (hversion : ∀ v, (Versions.insert v).Keeps I) : UnharmedFor S I := by
  have hjobs : ∀ s jobs, I s → I { s with jobs := jobs } := fun _ _ => hsame rfl
  have hpages : ∀ s pages last, I s → I { s with pages := pages, pageSeq := last } :=
    fun _ _ _ => hsame rfl
  exact of_frames (fun _ _ => hsame rfl) hversion (fun _ _ => hsame rfl)
    (Pages.upsert_frame hpages) (Pages.setEdit_frame hpages) (Pages.deleteAll_frame hpages)
    (Jobs.insertEvent_frame fun _ _ _ => hsame rfl) (Jobs.insertRow_frame hjobs)
    (Jobs.statement_frame hjobs)

/-- A property of the events. -/
theorem of_events
    (hsame : ∀ {s s'}, s'.events = s.events → s'.eventSeq = s.eventSeq → I s → I s')
    (hnote : ∀ jobId kind step message trace now,
      (Jobs.insertEvent jobId kind step message trace now).Keeps I) : UnharmedFor S I := by
  have hjobs : ∀ s jobs, I s → I { s with jobs := jobs } := fun _ _ => hsame rfl rfl
  have hpages : ∀ s pages last, I s → I { s with pages := pages, pageSeq := last } :=
    fun _ _ _ => hsame rfl rfl
  exact of_frames (fun _ _ => hsame rfl rfl) (Versions.insert_frame fun _ _ => hsame rfl rfl)
    (fun _ _ => hsame rfl rfl) (Pages.upsert_frame hpages) (Pages.setEdit_frame hpages)
    (Pages.deleteAll_frame hpages) hnote (Jobs.insertRow_frame hjobs) (Jobs.statement_frame hjobs)

/-- A property of the jobs, where the rules of the schema are obeyed. -/
theorem of_jobs (hsame : ∀ {s s'}, s'.jobs = s.jobs → I s → I s')
    (hchange : ∀ {s} id now c, (c.target? = some .polling → S id) → s.Sound → I s →
      I (Jobs.changed s id now c))
    (hadd : ∀ {s} (n : NewJob) id now heartbeat, I s →
      I { s with jobs := s.jobs ++ [Jobs.rowOf (n.toJob id now heartbeat) .queued] }) :
    UnharmedFor S fun s => s.Sound ∧ I s := by
  have hstatement : ∀ id now (c : Jobs.Change), (c.target? = some .polling → S id) →
      (c.statement id now).Keeps fun s => s.Sound ∧ I s := fun id now c hS s hs =>
    (Jobs.statement_wp hs.1.apart c id now).mpr
      ⟨hs.1.changeJob id now c, hchange id now c hS hs.1 hs.2⟩
  have hqueue : ∀ (n : NewJob) id now heartbeat,
      (Jobs.insert (n.toJob id now heartbeat)).Keeps I := by
    intro n id now heartbeat s hs
    refine Jobs.insertRow_wp _ |>.mpr ?_
    split
    · trivial
    · split
      · trivial
      · split
        · exact hadd n id now heartbeat hs
        · trivial
  have hdocuments : ∀ s documents, I s → I { s with documents := documents } :=
    fun _ _ => hsame rfl
  have hpages : ∀ s pages last, I s → I { s with pages := pages, pageSeq := last } :=
    fun _ _ _ => hsame rfl
  have hversions : ∀ s versions, I s → I { s with versions := versions } := fun _ _ => hsame rfl
  have hartifacts : ∀ s artifacts, I s → I { s with artifacts := artifacts } :=
    fun _ _ => hsame rfl
  have hevents : ∀ s events last, I s → I { s with events := events, eventSeq := last } :=
    fun _ _ _ => hsame rfl
  have hS := Store.Sound.unharmed
  exact
    { mark := fun id now c hc => hstatement id now c fun hpolling => by simp [hc] at hpolling
      note := fun _ _ _ _ _ _ => (hS.note _ _ _ _ _ _).and
        (Jobs.insertEvent_frame hevents _ _ _ _ _ _)
      storePage := fun _ _ _ => (hS.storePage _ _ _).and (Pages.upsert_frame hpages _ _ _)
      editPage := fun _ _ _ _ _ => (hS.editPage _ _ _ _ _).and
        (Pages.setEdit_frame hpages _ _ _ _ _)
      addArtifact := fun _ => (hS.addArtifact _).and (Artifacts.insert_frame hartifacts _)
      register := fun _ _ _ _ => (hS.register _ _ _ _).and
        (Documents.insertAs_frame hdocuments _ _)
      process := fun _ _ => (hS.process _ _).and (Documents.changeFrom_frame hdocuments _ _ _)
      draft := fun _ _ _ => (hS.draft _ _ _).and (Documents.changeFrom_frame hdocuments _ _ _)
      fail := fun _ _ => (hS.fail _ _).and (Documents.changeFrom_frame hdocuments _ _ _)
      publish := fun _ _ _ _ => (hS.publish _ _ _ _).and
        (Documents.changeFrom_frame hdocuments _ _ _)
      enqueue := fun n id now heartbeat => (hS.enqueue n id now heartbeat).and
        (hqueue n id now heartbeat)
      change := hstatement
      clearPages := fun _ => (hS.clearPages _).and (Pages.deleteAll_frame hpages _)
      addVersion := fun _ => (hS.addVersion _).and (Versions.insert_frame hversions _) }

end UnharmedFor
end Quire
