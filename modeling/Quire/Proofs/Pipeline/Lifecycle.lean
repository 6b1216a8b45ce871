import Quire.Proofs.Flow.Interleaving
import Quire.Proofs.Flow.Turns
import Quire.Proofs.Pipeline.Publishing
import Quire.Proofs.Pipeline.Quiet
import Quire.Proofs.Store.Pages

/-! The life of a document.

A document is registered, processed, becomes a draft and is published; a failed one may be processed
again. Each step of calls that take turns leaves a document alone or moves it along one of these
edges (`Store.Advances`), and what the columns of a document say of its versions holds in every
reachable store (`Store.Certified`): a document is published if and only if it refers to a version,
and that is the last one of all its versions. -/
namespace Quire

/-! ### Edges -/

/-- The ways from one status to another. -/
inductive DocumentStatus.Edge : DocumentStatus → DocumentStatus → Prop
  | starts : Edge .uploading .processing
  | restarts : Edge .failed .processing
  | extracted : Edge .processing .draft
  | fails : Edge .processing .failed
  | publishes : Edge .draft .published

/-- A document that has moved along an edge, and what else of it has changed. -/
structure DocumentRow.Moves (r r' : DocumentRow) : Prop where
  edge : r.status.Edge r'.status
  pageCount : r'.pageCount = r.pageCount ∨ r.status = .processing ∧ r'.status = .draft
  version : r'.activeVersion = r.activeVersion ∧ r'.publishedAt = r.publishedAt ∧
    r'.title = r.title ∨ r.status = .draft ∧ r'.status = .published
  others : r' = { r with
    status := r'.status
    pageCount := r'.pageCount
    activeVersion := r'.activeVersion
    publishedAt := r'.publishedAt
    title := r'.title
    updatedAt := r'.updatedAt }

/-- Each document has stayed as it was or has moved along an edge; what is new is fresh and has an
id of its own. -/
def Store.Advances (s s' : Store) : Prop :=
  ∃ old new, s'.documents = old ++ new ∧
    List.Forall₂ (fun r r' => r' = r ∨ r.Moves r') s.documents old ∧
    ∀ r ∈ new, r.Fresh ∧ s.hasDocument r.id = false

/-- Every change of a document is along an edge. -/
theorem Documents.Change.moves (c : Change) (now : String) {r : DocumentRow}
    (h : r.status ∈ c.sources) : r.Moves (c.apply now r) := by
  cases c with
  | processing =>
    refine ⟨?_, .inl rfl, .inl ⟨rfl, rfl, rfl⟩, rfl⟩
    rcases List.mem_pair.mp h with hstatus | hstatus
    · rw [hstatus]
      exact .starts
    · rw [hstatus]
      exact .restarts
  | draft pageCount =>
    have hstatus := List.mem_singleton.mp h
    exact ⟨hstatus ▸ .extracted, .inr ⟨hstatus, rfl⟩, .inl ⟨rfl, rfl, rfl⟩, rfl⟩
  | failed =>
    have hstatus := List.mem_singleton.mp h
    exact ⟨hstatus ▸ .fails, .inl rfl, .inl ⟨rfl, rfl, rfl⟩, rfl⟩
  | published version title =>
    have hstatus := List.mem_singleton.mp h
    exact ⟨hstatus ▸ .publishes, .inl rfl, .inr ⟨hstatus, rfl⟩, rfl⟩

namespace Store
variable {s s' : Store}

theorem Advances.of_changed {id now : String} {c : Documents.Change}
    (h : s'.documents = Documents.changed id now c s.documents) : s.Advances s' := by
  refine ⟨_, [], by rw [h, List.append_nil], ?_, by simp⟩
  unfold Documents.changed changeWhere
  rw [List.forall₂_map_right_iff, List.forall₂_same]
  intro r hr
  split
  case isTrue hstarts => exact .inr (c.moves now (Documents.Change.starts_iff.mp hstarts).2)
  case isFalse => exact .inl rfl

theorem Advances.of_append {new : List DocumentRow} (h : s'.documents = s.documents ++ new)
    (hnew : ∀ r ∈ new, r.Fresh ∧ s.hasDocument r.id = false) : s.Advances s' := by
  refine ⟨s.documents, new, h, ?_, hnew⟩
  rw [List.forall₂_same]
  exact fun r _ => .inl rfl

theorem Turn.advances (h : s.Turn s') : s.Advances s' := by
  cases h with
  | rests hd _ =>
    have hnone : s'.documents = s.documents ++ [] := by simp [hd]
    exact .of_append hnone (by simp)
  | registers r hfresh hnew hd _ => exact .of_append hd (by simp [hfresh, hnew])
  | moves id now c _ hd _ => exact .of_changed hd
  | publishes v now title _ _ _ hd _ => exact .of_changed hd

/-- A published document is never changed. -/
theorem Turn.published (h : s.Turn s') {r : DocumentRow} (hr : r ∈ s.documents)
    (hstatus : r.status = .published) : r ∈ s'.documents := by
  have hchanged : ∀ id now (c : Documents.Change),
      s'.documents = Documents.changed id now c s.documents → r ∈ s'.documents := by
    intro id now c hd
    have hstays : c.starts id r = false := by
      rw [← Bool.not_eq_true, Documents.Change.starts_iff, hstatus]
      cases c <;> simp [Documents.Change.sources]
    rw [hd]
    exact mem_changeWhere.mpr ⟨r, hr, by simp [hstays]⟩
  cases h with
  | rests hd _ => exact hd ▸ hr
  | registers _ _ _ hd _ => exact hd ▸ List.mem_append_left _ hr
  | moves id now c _ hd _ => exact hchanged id now c hd
  | publishes v now title _ _ _ hd _ => exact hchanged _ _ _ hd

end Store

/-! ### Versions of a document -/

/-- What a document says of its versions: which one is published, and that it is the last one. -/
structure DocumentRow.Refers (r : DocumentRow) (versions : List Version) (active : UInt32) :
    Prop where
  activeVersion : r.activeVersion = .ofNat active.toNat
  published : r.status = .published ↔ 1 ≤ active
  publishedAt : 1 ≤ active ↔ r.publishedAt.isSome = true
  last : 1 ≤ active → ∃ v ∈ versions, v.documentId = r.id ∧ v.version = active ∧
    ∀ w ∈ versions, w.documentId = r.id → w.version ≤ active

/-- All documents speak the truth about their versions. -/
def Store.Certified (s : Store) : Prop :=
  ∀ r ∈ s.documents, ∃ active, r.Refers s.versions active

namespace DocumentRow.Refers
variable {r : DocumentRow} {versions : List Version} {active : UInt32}

theorem of_fresh (h : r.Fresh) : r.Refers versions 0 where
  activeVersion := h.activeVersion
  published := by simp [h.status]
  publishedAt := by simp [h.publishedAt]
  last := by simp

/-- A document that is not published refers to no version, so neither does it after a change that
does not publish it. -/
theorem move (h : r.Refers versions active) (c : Documents.Change) (now : String)
    (hc : c.target ≠ .published) (hr : r.status ∈ c.sources) :
    (c.apply now r).Refers versions active := by
  have hstatus : r.status ≠ .published := by
    intro hpublished
    rw [hpublished] at hr
    cases c <;> simp [Documents.Change.sources] at hr
  have hnone : ¬ 1 ≤ active := fun hactive => hstatus (h.published.mpr hactive)
  have hsame : (c.apply now r).activeVersion = r.activeVersion ∧
      (c.apply now r).publishedAt = r.publishedAt := by
    cases c with
    | published version title => exact absurd rfl hc
    | _ => exact ⟨rfl, rfl⟩
  constructor
  · rw [hsame.1, h.activeVersion]
  · rw [c.apply_status]
    exact ⟨fun htarget => absurd htarget hc, fun hactive => absurd hactive hnone⟩
  · rw [hsame.2]
    exact h.publishedAt
  · exact fun hactive => absurd hactive hnone

/-- A version of another document is added. -/
theorem add (h : r.Refers versions active) {v : Version} (hv : v.documentId ≠ r.id) :
    r.Refers (versions ++ [v]) active := by
  refine ⟨h.activeVersion, h.published, h.publishedAt, fun hactive => ?_⟩
  obtain ⟨w, hw, hdoc, hversion, hlast⟩ := h.last hactive
  refine ⟨w, List.mem_append_left _ hw, hdoc, hversion, fun w' hw' hdoc' => ?_⟩
  rcases List.mem_append.mp hw' with hold | hnew
  · exact hlast w' hold hdoc'
  · rw [List.mem_singleton.mp hnew] at hdoc'
    exact absurd hdoc' hv

/-- A document that is not published may still have versions: a new one is higher than they are. -/
theorem publish (r : DocumentRow) {v : Version} (hv : v.documentId = r.id) (hpositive : 1 ≤ v.version)
    (hhigher : ∀ w ∈ versions, w.documentId = v.documentId → w.version < v.version)
    (now : String) (title : Option String) :
    ((Documents.Change.published v.version title).apply now r).Refers (versions ++ [v])
      v.version := by
  refine ⟨rfl, by simp [hpositive, Documents.Change.target], ?_, fun _ => ?_⟩
  · simp [hpositive, Documents.Change.apply]
  · refine ⟨v, List.mem_append_right _ (List.mem_singleton_self v), hv, rfl, fun w hw hdoc => ?_⟩
    rcases List.mem_append.mp hw with hold | hnew
    · exact UInt32.le_of_lt (hhigher w hold (hdoc.trans hv.symm))
    · rw [List.mem_singleton.mp hnew]
      exact UInt32.le_refl _

end DocumentRow.Refers

/-- What documents say of their versions stays true. -/
theorem Store.Certified.turn {s s' : Store} (h : s.Certified) (hs : s.Sound) (hturn : s.Turn s') :
    s'.Certified := by
  intro r' hr'
  cases hturn with
  | rests hd hv =>
    rw [hd] at hr'
    rw [hv]
    exact h r' hr'
  | registers r hfresh _ hd hv =>
    rw [hd] at hr'
    rw [hv]
    rcases List.mem_append.mp hr' with hold | hnew
    · exact h r' hold
    · rw [List.mem_singleton.mp hnew]
      exact ⟨0, .of_fresh hfresh⟩
  | moves id now c hc hd hv =>
    rw [hd] at hr'
    rw [hv]
    obtain ⟨r, hr, rfl⟩ := mem_changeWhere.mp hr'
    obtain ⟨active, hrefers⟩ := h r hr
    refine ⟨active, ?_⟩
    split
    case isTrue hstarts => exact hrefers.move c now hc (Documents.Change.starts_iff.mp hstarts).2
    case isFalse => exact hrefers
  | publishes v now title hpositive hdraft hhigher hd hv =>
    rw [hd] at hr'
    rw [hv]
    obtain ⟨r, hr, rfl⟩ := mem_changeWhere.mp hr'
    split
    case isTrue hstarts =>
      have hid := (Documents.Change.starts_iff.mp hstarts).1
      exact ⟨v.version, .publish r hid.symm hpositive hhigher now title⟩
    case isFalse hstays =>
      -- The draft is the only document of its id, so this one is another.
      have hother : v.documentId ≠ r.id := by
        intro hid
        obtain ⟨draft, hmem, hdraftId, hstatus⟩ := hdraft
        obtain rfl := hs.document_unique hmem hr (hdraftId.trans hid)
        exact hstays (Documents.Change.starts_iff.mpr
        ⟨hid.symm, by simp [hstatus, Documents.Change.sources]⟩)
      obtain ⟨active, hrefers⟩ := h r hr
      exact ⟨active, hrefers.add hother⟩

/-! ### Calls that take turns -/

namespace Scene
variable {c c' : Scene}

theorem issued (hc : Relation.ReflTransGen Step start c) : ∀ f ∈ c.flows, f.Issues Issued := by
  have hstart : Keeping Store.Sound start := ⟨.empty, by simp [start]⟩
  exact (hstart.steps Store.Sound.unharmed hc).issued

/-- A step is one turn at most. -/
theorem Step.turn (hstep : Step c c') (hissued : ∀ f ∈ c.flows, f.Issues Issued) :
    c.store.Turn c'.store := by
  cases hstep with
  | call s flows call => exact .rests rfl rfl
  | answer s s' before after op next b hb =>
    have hasking := Flow.Issues.ask.mp (hissued _ (List.mem_append_right before List.mem_cons_self))
    by_cases ht : op.isTransaction = true
    · cases op with
      | transact t =>
        have hwp := (Txn.wp_iff_run t).mp (Issued.turns hasking.1 s)
        rw [hb.1] at hwp
        cases b with
        | ok a => exact hwp.1 a rfl
        | error e =>
          have hfailed : (t.run s).1 = .error e := by rw [hb.1]
          have hsame := Txn.run_error hfailed
          rw [hb.1] at hsame
          obtain rfl : s' = s := hsame
          exact .rests rfl rfl
      | _ => cases ht
    · have hstays := (Surroundings.answers_iff _ (Bool.not_eq_true _ ▸ ht)).mp hb
      obtain rfl : s' = s := hstays.1
      exact .rests rfl rfl

theorem certified (hc : Relation.ReflTransGen Step start c) : c.store.Certified := by
  induction hc with
  | refl =>
    intro r hr
    simp [start, Store.empty] at hr
  | tail hsteps hstep ih =>
    have hsound : Store.Sound _ := Store.Reachable.sound ⟨_, hsteps⟩
    exact ih.turn hsound (hstep.turn (issued hsteps))

theorem published (hc : Relation.ReflTransGen Step start c)
    (hsteps : Relation.ReflTransGen Step c c') {r : DocumentRow} (hr : r ∈ c.store.documents)
    (hstatus : r.status = .published) : r ∈ c'.store.documents := by
  induction hsteps with
  | refl => exact hr
  | tail hmid hstep ih => exact (hstep.turn (issued (hc.trans hmid))).published ih hstatus

end Scene

/-- Whatever calls take turns, a document moves along the edges of its life and nowhere else: what
is new is fresh, and what is published stays as it is. It is published if and only if it refers to a
version, and if and only if it has a time of publication; then that version is there, and it is the
last one of the document. -/
theorem documents_move_along_edges {c c' : Scene}
    (hc : Relation.ReflTransGen Scene.Step Scene.start c) (hstep : Scene.Step c c') :
    c.store.Advances c'.store ∧ c.store.Certified ∧ c'.store.Certified ∧
      ∀ later, Relation.ReflTransGen Scene.Step c' later → ∀ r ∈ c'.store.documents,
        r.status = .published → r ∈ later.store.documents :=
  ⟨(hstep.turn (Scene.issued hc)).advances, Scene.certified hc, Scene.certified (hc.tail hstep),
    fun _ hlater _ hr hstatus => Scene.published (hc.tail hstep) hlater hr hstatus⟩

/-! ### An upload of one page -/

namespace Attended

/-- A pipeline that recognizes small files at once. -/
def pipeline : Pipeline := { Background.pipeline with settings := .standard }

/-- The document as the ingestion has found it. -/
def document : Document := lockedUpload.toDocument .image "d" Background.start.timestamp

def progressed : Store :=
  ((Ledger.progressed "j" 0 1 "ocr" Background.start).run Background.running).2

/-- The one page is stored, and the document is a draft. -/
def draft : Store :=
  ((Pipeline.finishWith document "j" [.uncleaned 1 "a" .ocr] "ocr_sync"
    Background.start.timestamp).run progressed).2

theorem draft_reachable : draft.Reachable :=
  Background.registered_quiet.reachable.run (.ingest pipeline "d" "o")
    ⟨"j", (registeredStore, ()), ⟨rfl, trivial⟩,
      Background.start, (registeredStore, ()), ⟨rfl, trivial⟩,
      _, (Background.locked, ()), ⟨rfl, rfl⟩,
      Background.start, (Background.locked, ()), ⟨rfl, trivial⟩,
      _, (Background.running, ()), ⟨rfl, rfl⟩,
      .ok ⟨"u", 1, Background.start⟩, (Background.running, ()), ⟨rfl, trivial⟩,
      Background.start, (Background.running, ()), ⟨rfl, trivial⟩,
      _, (progressed, ()), ⟨rfl, rfl⟩, .ok [], (progressed, ()), ⟨rfl, trivial⟩,
      .ok "a", (progressed, ()), ⟨rfl, trivial⟩,
      Background.start, (progressed, ()), ⟨rfl, trivial⟩, _, (draft, ()), ⟨rfl, rfl⟩, rfl, rfl⟩

def publishing : Txn PipelineError Published :=
  Pipeline.publishDraft "d" "o" .standard ⟨"v", "g"⟩ Background.start pipeline.ledger.heartbeat

def published : Store := (publishing.run draft).2

theorem draft_intact : draft.Intact where
  toSound := draft_reachable.sound
  keyed := draft_reachable.keyed
  legible d r hr := by
    have hmem : r ∈ draft.pages := (List.mem_filter.mp hr).1
    obtain rfl := List.mem_singleton.mp hmem
    exact ⟨_, rfl⟩
  documents r hr := by
    obtain rfl := List.mem_singleton.mp hr
    exact ⟨_, rfl, by decide⟩
  versions v hv := by
    have hnone : draft.versions = [] := rfl
    simp [hnone] at hv

theorem draft_allowed : PublishOptions.standard.Allowed := fun _ => by decide

theorem draft_mayPublish : draft.MayPublish "d" "o" .standard :=
  ⟨draft_allowed, _, List.mem_singleton_self _, rfl, rfl, rfl⟩

/-- The draft is published. -/
theorem publication : ∃ p, publishing.run draft = (.ok p, published) ∧
    Publication draft published "d" "o" .standard Background.start p := by
  have hnone : draft.versions = [] := rfl
  have hversion : ∀ v ∈ draft.versions, v.id ≠ "v" := by simp [hnone]
  have hjob : draft.hasJob "g" = false := by decide
  have hwp : publishing.wp _ _ draft := Pipeline.publishDraft_wp draft_intact draft_allowed hversion
    hjob Background.start pipeline.ledger.heartbeat
  rw [Txn.wp_iff_run] at hwp
  cases hrun : (publishing.run draft).1 with
  | ok p => exact ⟨p, Prod.ext hrun rfl, (hwp.1 p hrun).2⟩
  | error e =>
    exact absurd draft_mayPublish ((hwp.2 e hrun).not_mayPublish draft_intact.toSound)

theorem published_mem : ∃ r ∈ published.documents, r.status = .published := by
  obtain ⟨p, -, hp⟩ := publication
  obtain ⟨above, r, below, document, -, -, -, -, hdocuments⟩ := hp.document
  refine ⟨r.asPublished p.version PublishOptions.standard.title Background.start.timestamp, ?_, rfl⟩
  simp [hdocuments]

/-- The call that publishes the draft, up to its transaction. -/
theorem publishing_asked : ∃ flows next,
    Relation.ReflTransGen Scene.Step Scene.start
      ⟨draft, flows ++ [.ask (.transact publishing) next]⟩ := by
  obtain ⟨flows, hdraft⟩ := draft_reachable
  have hcall := hdraft.tail (.call draft flows (.publish pipeline.ledger "d" "o" .standard))
  have hclock := hcall.tail (.answer draft draft flows [] .clock _ Background.start ⟨rfl, trivial⟩)
  have hversion := hclock.tail (.answer draft draft flows [] .freshId _ "v" ⟨rfl, trivial⟩)
  exact ⟨flows, _, hversion.tail (.answer draft draft flows [] .freshId _ "g" ⟨rfl, trivial⟩)⟩

end Attended

/-- A draft of one page is published: it moves to the end of its life and refers to its version. -/
theorem draft_moves_to_published :
    Attended.draft.Advances Attended.published ∧
      (∃ r ∈ Attended.draft.documents, r.status = .draft) ∧
      ∃ r ∈ Attended.published.documents, r.status = .published ∧
        ∃ v ∈ Attended.published.versions, v.documentId = r.id ∧
          r.activeVersion = .ofNat v.version.toNat := by
  obtain ⟨flows, next, hc⟩ := Attended.publishing_asked
  obtain ⟨hadvances, -, hcertified, -⟩ := documents_move_along_edges hc
    (.answer Attended.draft Attended.published flows [] _ next _ ⟨rfl, rfl⟩)
  obtain ⟨r, hr, hpublished⟩ := Attended.published_mem
  obtain ⟨active, hrefers⟩ := hcertified r hr
  obtain ⟨v, hv, hdoc, rfl, -⟩ := hrefers.last (hrefers.published.mp hpublished)
  exact ⟨hadvances, ⟨_, List.mem_singleton_self _, rfl⟩, r, hr, hpublished, v, hv, hdoc,
    hrefers.activeVersion⟩

end Quire
