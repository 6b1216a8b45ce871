import Quire.Proofs.Pipeline.Operations

/-! Documents and jobs agree whenever nothing is under way.

Operations are run one after the other, each to its end, with whatever arguments, answers and
failures. After each of them a document is processing if and only if an extraction of it has not
ended, and all such extractions can be checked on. -/
namespace Quire

/-- The call is a whole operation, not a single entry in the ledger. -/
def Call.isOperation : Call → Bool
  | .register _ | .ingest .. | .poll .. | .wait .. | .sweep _ | .saveEdit .. | .publish ..
  | .generate _ => true
  | _ => false

/-- A store after some operations, each run to its end. -/
inductive Store.Quiet : Store → Prop
  | empty : Quiet Store.empty
  | run {s s' : Store} (c : Call) : s.Quiet → c.isOperation = true →
      Surroundings.free.Runs c.flow (s, ()) () (s', ()) → s'.Quiet

theorem Store.Quiet.reachable {s : Store} (hs : s.Quiet) : s.Reachable := by
  induction hs with
  | empty => exact .empty
  | run c _ _ hruns ih => exact ih.run c hruns

/-- Between two transactions of an operation documents and jobs are linked, and nothing is under
way after it. -/
theorem Call.calm {c : Call} (hc : c.isOperation = true) {s : Store} (hs : s.Calm none) :
    (∀ m, Surroundings.free.Passes c.flow (s, ()) m → m.1.Linked) ∧
      ∀ u m, Surroundings.free.Runs c.flow (s, ()) u m → m.1.Calm none := by
  have hignored : ∀ {ε α : Type} {r : Run ε α},
      r.Takes .free Store.Linked (Store.Calm none) (fun _ => Store.Calm none) (fun _ => Store.Calm none) →
      (∀ m, Surroundings.free.Passes r.ignored (s, ()) m → m.1.Linked) ∧
        ∀ u m, Surroundings.free.Runs r.ignored (s, ()) u m → m.1.Calm none :=
    fun h => h.ignored hs hs.toLinked ()
  have hrests : ∀ {ε α : Type} {r : Run ε α}, r.Rests (fun _ => True) →
      r.Takes .free Store.Linked (Store.Calm none) (fun _ => Store.Calm none)
        (fun _ => Store.Calm none) := fun h =>
    h.conseq (fun _ hs => ⟨hs, trivial⟩) (fun _ _ hs => hs.1) fun _ _ hs => hs.1
  cases c with
  | register d => exact hignored (hrests (Pipeline.register_rests d))
  | ingest p documentId ownerId => exact hignored (p.ingest_takes documentId ownerId)
  | poll p jobId => exact hignored (hrests (p.poll_rests Durable.always))
  | wait p jobId => exact hignored (hrests (p.wait_rests Durable.always))
  | sweep now => exact hignored (hrests (Sweep.run_rests now))
  | saveEdit documentId ownerId pageNo text =>
    exact hignored (hrests (Pipeline.saveEdit_rests documentId ownerId pageNo text))
  | publish l documentId ownerId o =>
    exact hignored (hrests (Pipeline.publish_rests l documentId ownerId o))
  | generate jobId => exact hignored (hrests (GenerationJob.run_rests jobId))
  | _ => cases hc

theorem Store.Quiet.calm {s : Store} (hs : s.Quiet) : s.Calm none := by
  induction hs with
  | empty => exact .empty
  | run c _ hc hruns ih => exact (c.calm hc ih).2 _ _ hruns

/-- Whatever operations were run, each to its end: a document is processing if and only if an
extraction of it has not ended. Each such extraction is polled, has a handle and a document, and
has recorded where its files are. And whenever an operation that starts from there reads a job that
is polled, no check on that job can miss its handle, its record or its document. -/
theorem documents_agree_with_jobs {s : Store} (hs : s.Quiet) :
    (∀ d ∈ s.documents, d.status = .processing ↔
      ∃ r ∈ s.jobs, r.isActive = true ∧ r.isExtraction = true ∧ r.documentId = some d.id) ∧
    (∀ r ∈ s.jobs, r.isActive = true → r.isExtraction = true →
      r.status = .polling ∧ r.operationHandle.isSome = true ∧ r.documentId.isSome = true ∧
        r.HasStaging) ∧
    ∀ c : Call, c.isOperation = true → ∀ m, Surroundings.free.Passes c.flow (s, ()) m →
      ∀ id job, ((Jobs.find id).run m.1).1 = .ok (some job) → job.status = .polling →
        job.operationHandle.isSome = true ∧ (∃ staging, Pipeline.stagingOf job = .ok staging) ∧
          ∃ d, Pipeline.documentOf job = .ok d := by
  have hcalm := hs.calm
  refine ⟨fun d hd => ?_, fun r hr hactive hkind => ?_, fun c hc m hm id job hjob hpolling => ?_⟩
  · rw [hcalm.link d hd]
    constructor
    · rintro ⟨r, hr, hactive, hdoc⟩
      exact ⟨r, hr, hactive, (hcalm.rows r hr).document.mpr (by simp [hdoc]), hdoc⟩
    · rintro ⟨r, hr, hactive, -, hdoc⟩
      exact ⟨r, hr, hactive, hdoc⟩
  · have hkept := hcalm.rows r hr
    have hpolling := (hcalm.polling r hr hactive hkind).resolve_right nofun
    exact ⟨hpolling, hkept.handle hpolling, hkept.document.mp hkind, hkept.staging hpolling⟩
  · have hlinked := (c.calm hc hcalm).1 m hm
    have hfind : (Jobs.find id).wp (fun found _ => ∀ job, found = some job → job.InOrder)
        (fun _ => True) m.1 := by
      refine Jobs.find_wp (fun _ h => nomatch h) (fun r hr _ job hshows job' h => ?_) fun _ => trivial
      exact Option.some.inj h ▸ (hlinked.rows r hr).inOrder hshows
    have horder := ((Txn.wp_iff_run _).mp hfind).1 _ hjob job rfl
    exact ⟨horder.handle hpolling, horder.staging hpolling, horder.document hpolling⟩

/-! ### An extraction in the background -/

namespace Background

/-- A pipeline that recognizes every file in the background. -/
def pipeline : Pipeline :=
  ⟨⟨.minute⟩, { Settings.standard with syncSizeLimit := 0 }, ⟨"gs", "b"⟩, none⟩

def start : Instant := ⟨0, 0⟩

def staging : Staging := .plan pipeline.bucket "o" "d" start "png" "image/png"

/-! The store after each transaction of an ingestion of the registered upload. -/

def locked : Store :=
  ((Pipeline.lockDocument "d" "o" "j" start pipeline.ledger.heartbeat).run registeredStore).2

def running : Store := ((Ledger.running "j" start).run locked).2

def staged : Store := ((Ledger.progressed "j" 0 1 "staging" start).run running).2

def submitted : Store := ((pipeline.ledger.polling "j" "h" staging.toJson start).run staged).2

def store : Store :=
  ((Jobs.insertEvent "j" .info (some "ocr_submit") "Asynchronous OCR operation started" none
    start.timestamp).run submitted).2

theorem registered_quiet : registeredStore.Quiet :=
  Store.Quiet.empty.run (.register lockedUpload) rfl
    ⟨start, (Store.empty, ()), ⟨rfl, trivial⟩, "d", (Store.empty, ()), ⟨rfl, trivial⟩,
      .ok (), (registeredStore, ()), ⟨rfl, rfl⟩, rfl, rfl⟩

theorem store_quiet : store.Quiet :=
  registered_quiet.run (.ingest pipeline "d" "o") rfl
    ⟨"j", (registeredStore, ()), ⟨rfl, trivial⟩, start, (registeredStore, ()), ⟨rfl, trivial⟩,
      _, (locked, ()), ⟨rfl, rfl⟩, start, (locked, ()), ⟨rfl, trivial⟩,
      _, (running, ()), ⟨rfl, rfl⟩, .ok ⟨"u", 1, start⟩, (running, ()), ⟨rfl, trivial⟩,
      start, (running, ()), ⟨rfl, trivial⟩, start, (running, ()), ⟨rfl, trivial⟩,
      _, (staged, ()), ⟨rfl, rfl⟩, .ok [], (staged, ()), ⟨rfl, trivial⟩,
      .ok (), (staged, ()), ⟨rfl, trivial⟩, .ok "h", (staged, ()), ⟨rfl, trivial⟩,
      start, (staged, ()), ⟨rfl, trivial⟩, _, (submitted, ()), ⟨rfl, rfl⟩,
      start, (submitted, ()), ⟨rfl, trivial⟩, _, (store, ()), ⟨rfl, rfl⟩, rfl, rfl⟩

end Background

/-- While text is recognized in the background, the document is processing and there is a job that
can be checked on. -/
theorem documents_agree_in_background :
    Background.store.Quiet ∧ ∃ d ∈ Background.store.documents, d.status = .processing ∧
      ∃ r ∈ Background.store.jobs, r.documentId = some d.id ∧ r.status = .polling ∧
        r.operationHandle.isSome = true ∧ r.HasStaging := by
  obtain ⟨hlink, hpolled, -⟩ := documents_agree_with_jobs Background.store_quiet
  obtain ⟨d, hd, hprocessing⟩ :
      ∃ d ∈ Background.store.documents, d.status = .processing := ⟨_, List.mem_singleton_self _, rfl⟩
  obtain ⟨r, hr, hactive, hkind, hdoc⟩ := (hlink d hd).mp hprocessing
  obtain ⟨hpolling, hhandle, -, hstaging⟩ := hpolled r hr hactive hkind
  exact ⟨Background.store_quiet, d, hd, hprocessing, r, hr, hdoc, hpolling, hhandle, hstaging⟩

end Quire
