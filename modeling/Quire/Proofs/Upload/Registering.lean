import Quire.Command.Run
import Quire.Proofs.Flow.Logic
import Quire.Proofs.Store.Transaction
import Quire.Proofs.Upload.Confinement

/-! Registering an upload, and where it is looked for afterwards.

The services answer the questions of a run one after the other, so they are a reading of the logic of
flows (`Services.leads_iff`), and what a command stores is followed through the run that it tells of
(`Pipeline.register_leads`). A document is registered by whatever its storage path leads to from the
uploads root; only for a path that stays inside is that also what a reference leads to. -/
namespace Quire

/-! ### Services as a reading -/

namespace Services
variable {σ α ε : Type} (s : Services) (machine : Machine (StateM σ))

/-- The services answer, in a session and with what the machine remembers. -/
def reading : Reading (Session × σ) where
  asking e K m :=
    let answer := ((s.answer machine e).run m.1).run m.2
    K answer.1.1 (answer.1.2, answer.2)
  mono _ _ h := h _ _

variable {s machine}

theorem leads_iff {Q : α → Session × σ → Prop} {f : Flow α} {session : Session} {x : σ} :
    Flow.Leads (s.reading machine) Q f (session, x) ↔
      let answer := ((Program.run (s.answer machine) f).run session).run x
      Q answer.1.1 (answer.1.2, answer.2) := by
  induction f generalizing session x with
  | done a => exact Iff.rfl
  | ask op next ih => exact ih _

theorem asking_clock {K : Instant → Session × σ → Prop} {session : Session} {x : σ} :
    (s.reading machine).asking .clock K (session, x) ↔
      K (machine.clock.run x).1 (session, (machine.clock.run x).2) := Iff.rfl

theorem asking_freshId {K : String → Session × σ → Prop} {session : Session} {x : σ} :
    (s.reading machine).asking .freshId K (session, x) ↔
      K (machine.freshId.run x).1 (session, (machine.freshId.run x).2) := Iff.rfl

theorem asking_transact [Widen StoreError ε] {K : Except ε α → Session × σ → Prop} {t : Txn ε α}
    {session : Session} {x : σ} :
    (s.reading machine).asking (.transact t) K (session, x) ↔
      t.wp (fun a store => K (.ok a) ({ session with store := store }, x))
        (fun e => K (.error e) (session, x)) session.store := by
  show K (t.run session.store).1 ({ session with store := (t.run session.store).2 }, x) ↔ _
  unfold Txn.run Txn.wp
  cases t session.store with
  | ok r => exact Iff.rfl
  | error e => exact Iff.rfl

end Services

/-! ### Registering -/

/-- The row that a document is stored in. -/
def Document.row (d : Document) : DocumentRow where
  id := d.id
  ownerId := d.ownerId
  title := d.title
  fileName := d.fileName
  storagePath := d.storagePath
  mimeType := d.mimeType
  fileType := d.fileType
  fileSize := .ofNat d.fileSize.toNat
  status := d.status
  pageCount := .ofNat d.pageCount.toNat
  activeVersion := .ofNat d.activeVersion.toNat
  publishedAt := d.publishedAt
  createdAt := d.createdAt
  updatedAt := d.updatedAt

open Txn in
theorem Documents.insert_wp {d : Document} {Q : Unit → Store → Prop} {E : StoreError → Prop}
    {s : Store} (hQ : Q () { s with documents := s.documents ++ [d.row] }) (hE : ∀ e, E e) :
    (insert d).wp Q E s := by
  have hword : Label.ofWord? (Label.word d.status) = some d.status := by
    cases d.status <;> decide
  simp only [insert, insertAs, hword, wp_bind, wp_ofExcept, wp_store, wp_require, wp_modify]
  refine ⟨fun size hsize => ⟨fun _ => ?_, fun _ => hE _⟩, fun e _ => hE e⟩
  obtain rfl : size = .ofNat d.fileSize.toNat := by
    unfold Cell.store at hsize
    split at hsize
    · exact (Except.ok.inj hsize).symm
    · cases hsize
  exact hQ

/-- A document that is registered stands behind the others, with the path and the size that were told
of it. -/
theorem Pipeline.register_leads {σ : Type} {s : Services} {machine : Machine (StateM σ)}
    {d : NewDocument} {session : Session} {x : σ} :
    Run.Leads (s.reading machine) (fun document m =>
        m.1.store.documents = session.store.documents ++ [document.row] ∧
          document.storagePath = d.storagePath ∧ document.fileSize = d.fileSize)
      (fun _ _ => True) (register d) (session, x) := by
  unfold register
  dsimp only
  split
  · exact (Run.Leads.bind _ _).mpr ((Run.Leads.throw _).mpr trivial)
  · refine (Run.Leads.bind _ _).mpr ((Run.Leads.perform _).mpr (Services.asking_clock.mpr ?_))
    refine (Run.Leads.bind _ _).mpr ((Run.Leads.perform _).mpr (Services.asking_freshId.mpr ?_))
    refine (Run.Leads.bind _ _).mpr ((Run.Leads.transact _).mpr (Services.asking_transact.mpr ?_))
    exact Documents.insert_wp ⟨rfl, rfl, rfl⟩ fun _ => trivial

/-! ### Commands -/

namespace Command
variable {σ α : Type} {w : Workplace} {machine : Machine (StateM σ)} {session session' : Session}
  {x x' : σ} {shown : Json}

theorem run_told {s : Services} {f : α → Json} {r : Run PipelineError α} :
    ((told s machine f r).run.run session).run x =
      let answer := ((Program.run (s.answer machine) r.run).run session).run x
      (((answer.1.1.map f).mapError CommandError.pipeline, answer.1.2), answer.2) := by
  show ((s.run machine r >>= _).run session).run x = _
  rw [StateT.run_bind, StateT.run_bind]
  change ((Program.run (s.answer machine) r.run).run session).run x >>= _ = _
  generalize ((Program.run (s.answer machine) r.run).run session).run x = answer
  obtain ⟨⟨outcome, session₁⟩, x₁⟩ := answer
  cases outcome <;> rfl

/-- A run that is told of comes to an answer only if it comes to a value. -/
theorem told_ok {s : Services} {f : α → Json} {r : Run PipelineError α}
    {Q : α → Session × σ → Prop}
    (hr : Run.Leads (s.reading machine) Q (fun _ _ => True) r (session, x))
    (h : ((told s machine f r).run.run session).run x = ((.ok shown, session'), x')) :
    ∃ a, shown = f a ∧ Q a (session', x') := by
  have hleads := Services.leads_iff.mp hr
  rw [run_told] at h
  generalize ((Program.run (s.answer machine) r.run).run session).run x = answer at hleads h
  obtain ⟨⟨outcome, session₁⟩, x₁⟩ := answer
  cases outcome with
  | error e => cases h
  | ok a =>
    cases h
    exact ⟨a, rfl, hleads⟩

variable {ownerId fileName path : String} {mime title : Option String}

/-- An upload is registered by its size, at a workplace that has a pipeline. -/
theorem perform_register_ok
    (h : ((perform w machine (.register ownerId fileName path mime title)).run.run session).run x =
      ((.ok shown, session'), x')) :
    ∃ size services, w.uploadSize path = .ok size ∧
      ((told services machine Document.toJson
        (Pipeline.register (newDocument ownerId fileName path mime title size))).run.run
          session).run x = ((.ok shown, session'), x') := by
  have hperform : perform w machine (.register ownerId fileName path mime title) = (do
      let size ← ExceptT.mk (pure (w.uploadSize path))
      let both ← ExceptT.mk (pure w.pipeline)
      told both.2 machine Document.toJson
        (Pipeline.register (newDocument ownerId fileName path mime title size))) := rfl
  rw [hperform] at h
  cases hsize : w.uploadSize path with
  | error e =>
    rw [hsize] at h
    cases h
  | ok size =>
    cases hpipeline : w.pipeline with
    | error e =>
      rw [hsize, hpipeline] at h
      cases h
    | ok both =>
      rw [hsize, hpipeline] at h
      exact ⟨size, both.2, rfl, h⟩

end Command

theorem Workplace.uploadSize_eq_ok_iff {w : Workplace} {path : String} {size : Nat} :
    w.uploadSize path = .ok size ↔ ∃ found,
      w.environment.find (Path.join w.config.storage.uploadsRoot path) = .ok found ∧
        size = Upload.entrySize Services.databaseSize found := by
  unfold uploadSize
  dsimp only
  cases w.environment.find (Path.join w.config.storage.uploadsRoot path) with
  | ok found => simp [eq_comm]
  | error fault => simp

/-- A document that is registered has the size of what its storage path leads to from the uploads
root. If the path stays inside, that is below the root, and it is what every reference to the path is
to; no other path has a place under the root. -/
theorem Command.register_agrees {σ : Type} (w : Workplace) (machine : Machine (StateM σ))
    (ownerId fileName path : String) (mime title : Option String) (session session' : Session)
    (x x' : σ) (shown : Json)
    (h : ((perform w machine (.register ownerId fileName path mime title)).run.run session).run x =
      ((.ok shown, session'), x')) :
    ∃ (found : Entry Database) (document : Document),
      w.environment.find (Path.join w.config.storage.uploadsRoot path) = .ok found ∧
      shown = document.toJson ∧
      session'.store.documents = session.store.documents ++ [document.row] ∧
      document.storagePath = path ∧
      document.fileSize = UInt64.ofNat (Upload.entrySize Services.databaseSize found) ∧
      ((∃ place, Upload.resolve w.config.storage.uploadsRoot path = .ok place) ↔
        path ≠ "" ∧ path.toList.head? ≠ some '/' ∧ ¬ Path.HasPart ".." path) ∧
      ∀ place, Upload.resolve w.config.storage.uploadsRoot path = .ok place →
        w.environment.find place = .ok found ∧
        (∃ top, w.environment.top w.config.storage.uploadsRoot = .ok top ∧
          top.descend (Path.segments path) = some found) ∧
        ∀ ttl now, Upload.reference w.environment Services.databaseSize
            w.config.storage.uploadsRoot path ttl now =
          .ok ⟨place, Upload.entrySize Services.databaseSize found, now.after ttl⟩ := by
  obtain ⟨size, services, hsize, htold⟩ := perform_register_ok h
  obtain ⟨found, hfound, rfl⟩ := Workplace.uploadSize_eq_ok_iff.mp hsize
  obtain ⟨document, hshown, hstored, hpath, hfileSize⟩ := told_ok Pipeline.register_leads htold
  refine ⟨found, document, hfound, hshown, hstored, hpath, hfileSize, ?_, fun place hplace => ?_⟩
  · constructor
    · rintro ⟨place, hplace⟩
      have hinside := (Upload.resolve_eq_ok_iff.mp hplace).1
      exact ⟨hinside.something, hinside.relative, hinside.descending⟩
    · rintro ⟨hsomething, hrelative, hdescending⟩
      exact ⟨_, Upload.resolve_inside _ ⟨hsomething, hrelative, hdescending⟩⟩
  · obtain ⟨hinside, rfl⟩ := Upload.resolve_eq_ok_iff.mp hplace
    exact ⟨hfound, Upload.below_root hinside hfound, fun _ _ =>
      Upload.reference_found hinside hfound⟩

/-! ### An upload, and a file beside the uploads -/

namespace Outsider

/-- A directory of uploads with one file in it, and another file beside it. -/
def environment : Environment Database where
  files := .directory [("uploads", .directory [("b.png", .bytes ⟨#[1, 2, 3]⟩)]),
    ("outside.png", .bytes ⟨#[4]⟩)]
  directory := "/"
  vars := []

/-- The key of an account, as it stands in a configuration. -/
def key : String :=
  (Json.object [("client_email", .text "e"), ("private_key", .text "k")]).compact

def workplace : Workplace where
  config :=
    { version := "1.0"
      database := .standard
      storage := ⟨"tmp", "uploads", "https://storage.googleapis.com"⟩
      credentials := ⟨some key, none, none⟩
      ocr := ⟨"p", "us", "q", none, Config.Ocr.syncSizeCeiling, 10, 90, .standard⟩
      cleaning := { Config.Cleaning.standard with enabled := false }
      ingest := .standard
      jobs := .standard
      generation := .standard }
  environment := environment
  ledger := ⟨⟨⟨600⟩, by decide⟩⟩

def machine : Machine (StateM Unit) where
  clock := pure ⟨0, 0⟩
  freshId := pure "d"
  wire := ⟨fun _ => pure none, fun _ => pure ()⟩
  sign _ _ := pure none
  known := []

/-- What registering a path answers where nothing is stored yet. -/
def registering (path : String) : (Except CommandError Json × Session) × Unit :=
  (((Command.register "o" "a.png" path none none).perform workplace machine).run.run
    ⟨.empty, .empty⟩).run ()

end Outsider

open Outsider in
theorem Command.register_agrees_upload : ∃ shown session', ∃ document : Document,
    registering "./b.png" = ((.ok shown, session'), ()) ∧
    session'.store.documents = [document.row] ∧
    document.storagePath = "./b.png" ∧ document.fileSize = 3 ∧
    Upload.reference environment Services.databaseSize "uploads" "./b.png" ⟨0⟩ ⟨0, 0⟩ =
      .ok ⟨"uploads/./b.png", 3, ⟨0, 0⟩⟩ := by
  have hrun : ∃ shown session', registering "./b.png" = ((.ok shown, session'), ()) := ⟨_, _, rfl⟩
  obtain ⟨shown, session', hrun⟩ := hrun
  obtain ⟨found, document, hfound, -, hstored, hpath, hsize, -, hplace⟩ :=
    register_agrees workplace machine "o" "a.png" "./b.png" none none ⟨.empty, .empty⟩ session' () ()
      shown hrun
  obtain rfl : Entry.bytes ⟨#[1, 2, 3]⟩ = found := Except.ok.inj hfound
  exact ⟨shown, session', document, hrun, hstored, hpath, hsize,
    (hplace "uploads/./b.png" rfl).2.2 ⟨0⟩ ⟨0, 0⟩⟩

open Outsider in
/-- The file beside the uploads is registered, but its path has no place under their root. -/
theorem Command.outsider_registered : ∃ shown session',
    registering "../outside.png" = ((.ok shown, session'), ()) ∧
    session'.store.documents.map (fun row => row.storagePath) = ["../outside.png"] ∧
    environment.find (Path.join "uploads" "../outside.png") = .ok (.bytes ⟨#[4]⟩) ∧
    Upload.resolve "uploads" "../outside.png" = .error (.notFound "../outside.png") :=
  ⟨_, _, rfl, rfl, rfl, rfl⟩

end Quire
