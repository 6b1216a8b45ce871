import Quire.Proofs.Pipeline.Results
import Quire.Proofs.Pipeline.Stale

/-! When a poll writes pages.

A poll stores pages batch by batch, each in a transaction that looks at no status. So pages are
written while the job is open and the document is processing if others see to it that this does
not change after the poll has read the job (`poll_writes_while_extracting`). Nothing does: a sweep
in between fails job and document, and the pages are written all the same
(`poll_writes_after_sweep`). -/
namespace Quire
open Txn

/-- The job is open and extracts a document, which is processing. -/
structure Store.Extracting (jobId d : String) (s : Store) : Prop where
  sound : s.Sound
  job : ∃ r ∈ s.jobs, Jobs.isOpen jobId r = true ∧ r.documentId = some d
  document : ∃ r ∈ s.documents, r.id = d ∧ r.status = .processing

/-- If the job is open, the document that it has is processing. -/
structure Store.Agrees (jobId : String) (s : Store) : Prop where
  sound : s.Sound
  document : ∀ r ∈ s.jobs, Jobs.isOpen jobId r = true → ∀ d, r.documentId = some d →
    ∃ r ∈ s.documents, r.id = d ∧ r.status = .processing

/-- Only pages of one document have changed. -/
def Store.OnlyPagesOf (d : String) (s s' : Store) : Prop :=
  s'.pages.filter (·.documentId != d) = s.pages.filter (·.documentId != d)

/-! ### Statements -/

/-- A harmless transaction leaves an extraction under way. -/
theorem Store.Extracting.spared (jobId d : String) : Spared (Store.Extracting jobId d) := by
  refine .of_tables (fun hdocuments hjobs h => ?_) fun id now c hc s h => ?_
  · exact ⟨h.sound.of_same hdocuments hjobs, hjobs ▸ h.job, hdocuments ▸ h.document⟩
  · refine (Jobs.statement_wp h.sound.apart c id now).mpr
      ⟨h.sound.changeJob id now c, ?_, h.document⟩
    obtain ⟨r, hr, hopen, hdoc⟩ := h.job
    refine ⟨_, mem_changeWhere.mpr ⟨r, hr, rfl⟩, ?_⟩
    by_cases hp : Jobs.isOpen id r = true
    · rw [if_pos hp]
      obtain ⟨hid, hactive⟩ := Jobs.isOpen_iff.mp hopen
      refine ⟨Jobs.isOpen_iff.mpr ⟨(c.apply_id now r).trans hid, ?_⟩, ?_⟩
      · exact (c.apply_isActive now r hc).trans hactive
      · rw [c.apply_documentId, hdoc]
    · rw [if_neg hp]
      exact ⟨hopen, hdoc⟩

/-- A harmless transaction opens no job and moves no document. -/
theorem Store.Agrees.spared (jobId : String) : Spared (Store.Agrees jobId) := by
  refine .of_tables (fun hdocuments hjobs h => ?_) fun id now c hc s h => ?_
  · refine ⟨h.sound.of_same hdocuments hjobs, fun r hr hopen d hd => ?_⟩
    rw [hdocuments]
    exact h.document r (hjobs ▸ hr) hopen d hd
  · refine (Jobs.statement_wp h.sound.apart c id now).mpr ⟨h.sound.changeJob id now c, ?_⟩
    intro r' hr' hopen d hd
    obtain ⟨r, hr, rfl⟩ := mem_changeWhere.mp hr'
    refine h.document r hr ?_ d ?_
    · by_cases hp : Jobs.isOpen id r = true
      · rw [if_pos hp] at hopen
        obtain ⟨hid, -⟩ := Jobs.isOpen_iff.mp hopen
        exact Jobs.isOpen_iff.mpr ⟨(c.apply_id now r).symm.trans hid, (Jobs.isOpen_iff.mp hp).2⟩
      · rwa [if_neg hp] at hopen
    · by_cases hp : Jobs.isOpen id r = true
      · rwa [if_pos hp, c.apply_documentId] at hd
      · rwa [if_neg hp] at hd

theorem Pages.upsertAll_onlyPagesOf (d now : String) (pages : List NewPage) (s : Store) :
    (upsertAll d now pages).Keeps fun s' => s.OnlyPagesOf d s' :=
  upsertAll_leaves (fun _ _ r hr => by simp [(isPage_iff.mp hr).1]) _

/-- A transaction that touches no page. -/
def Txn.SparesPages {ε α : Type} (t : Txn ε α) : Prop := ∀ pages, t.Keeps fun s => s.pages = pages

namespace Txn.SparesPages

theorem statement (c : Jobs.Change) (id now : String) : (c.statement id now).SparesPages := by
  rw [c.statement_eq]
  exact fun _ => Keeps.bind Keeps.store fun _ => Keeps.bind (Keeps.ofExcept _) fun _ =>
    Keeps.bind (Keeps.modify fun _ h => h) fun _ => Keeps.pure _

theorem guarded (c : Jobs.Change) (id now : String) :
    (Quire.guarded id (c.statement id now)).SparesPages :=
  fun pages => guarded_keeps (statement c id now pages) id

theorem insertEvent (jobId : String) (kind : EventKind) (step : Option String) (message : String)
    (trace : Option String) (now : String) :
    (Jobs.insertEvent jobId kind step message trace now).SparesPages :=
  fun _ => Keeps.bind Keeps.store fun _ => Keeps.bind (Keeps.require _ _) fun _ =>
    Keeps.modify fun _ h => h

theorem changeFrom (id : String) (allowed : List DocumentStatus) (f : DocumentRow → DocumentRow) :
    (Documents.changeFrom id allowed f).SparesPages :=
  fun _ => Keeps.bind Keeps.store fun _ => Keeps.bind (Keeps.modify fun _ h => h) fun _ =>
    Keeps.pure _

theorem failJob (job : Job) (message : String) (detail : Option String) (now : String) :
    (Pipeline.failJob job message detail now).SparesPages := by
  intro pages
  have hevent : ((Jobs.insertEvent job.id .error (some "poll") message detail now).widen :
      Txn PipelineError Unit).Keeps fun s => s.pages = pages :=
    (insertEvent job.id .error (some "poll") message detail now pages).widen
  refine (guarded (.failed message) job.id now pages).widen.bind fun _ => ?_
  cases job.documentId with
  | none => exact (Keeps.pure ()).bind fun _ => hevent
  | some documentId => exact ((changeFrom documentId _ _ pages).widen).bind fun _ => hevent

theorem completeJob (jobId documentId : String) (c : Collected) (cleanupFailed : Bool)
    (now : String) : (Pipeline.completeJob jobId documentId c cleanupFailed now).SparesPages := by
  intro pages
  refine ((changeFrom documentId _ _ pages).widen).bind fun moved => ?_
  refine (Keeps.require _ _).bind fun _ => ?_
  refine (guarded (.completed _) jobId now pages).widen.bind fun _ => ?_
  exact (insertEvent _ _ _ _ _ _ pages).widen

end Txn.SparesPages

/-! ### The steps of a poll -/

/-- A move that touches no page, or touches only pages of a document that is extracted. -/
def Store.Writes (jobId : String) (s s' : Store) : Prop :=
  s'.pages = s.pages ∨ ∃ d, s.Extracting jobId d ∧ s.OnlyPagesOf d s'

namespace Pipeline
variable {σ : Type} {jobId d : String}

/-- A poll among others. -/
def polling (w : Surroundings σ) (others : Moment σ → Moment σ → Prop) (jobId : String) :
    Company σ where
  world := w
  others := others
  own m m' := m.1.Writes jobId m'.1
  looks _ := .inl rfl

variable {w : Surroundings σ} {others : Moment σ → Moment σ → Prop} {ε α : Type}

/-- A run that touches no page. -/
theorem amid_of_issues {r : Run ε α} (hr : r.Issues fun _ _ t => t.SparesPages) :
    r.Amid (polling w others jobId) (fun _ => True) (fun _ _ => True) fun _ _ => True := by
  refine .of_issues hr (fun _ _ _ h => h) (fun _ _ _ => ⟨.inl rfl, trivial⟩) fun ht s x _ => ?_
  exact wp_mono (ht s.pages s rfl) (fun _ _ hsame => ⟨.inl hsame, trivial⟩) fun _ h => h

theorem fail_amid (job : Job) (message : String) (detail : Option String) :
    (fail job message detail).Amid (polling w others jobId) (fun _ => True) (fun _ _ => True)
      fun _ _ => True :=
  amid_of_issues (Run.Issues.clock.bind fun now =>
    (Run.Issues.transact (.failJob job message detail now.timestamp)).bind fun _ =>
      Run.Issues.pure _)

variable (p : Pipeline)

/-- Pages are stored while the extraction is under way. -/
theorem gather_amid (keys : List String)
    (hstays : ∀ m m', others m m' → m.1.Extracting jobId d → m'.1.Extracting jobId d) :
    (p.gather jobId d keys).Amid (polling w others jobId) (fun m => m.1.Extracting jobId d)
      (fun _ m => m.1.Extracting jobId d) fun _ m => m.1.Extracting jobId d := by
  have hkept : ∀ {ε α : Type} {t : Txn ε α}, Harmless ε α t → t.SparesPages ∨
      (∀ s : Store, t.Keeps fun s' => s.OnlyPagesOf d s') → ∀ s : Store, s.Extracting jobId d →
      t.wp (fun _ s' => s.Writes jobId s' ∧ s'.Extracting jobId d) (fun _ => True) s := by
    intro ε α t ht hpages s hs
    have hextracting := (Store.Extracting.spared jobId d).keeps ht s hs
    rcases hpages with hpages | hpages
    · exact wp_mono (wp_and (hpages s.pages s rfl) hextracting)
        (fun _ _ h => ⟨.inl h.1, h.2⟩) fun _ h => h.1
    · exact wp_mono (wp_and (hpages s s rfl) hextracting)
        (fun _ _ h => ⟨.inr ⟨d, hs, h.1⟩, h.2⟩) fun _ h => h.1
  have hcollects : Collects (fun ε α t => ∀ s : Store, s.Extracting jobId d →
      t.wp (fun _ s' => s.Writes jobId s' ∧ s'.Extracting jobId d) (fun _ => True) s) jobId d :=
    { progress := fun now done total percent step =>
        hkept (.progress jobId now done total percent step) (.inl (.guarded _ jobId now))
      storePages := fun now pages =>
        hkept (.storePages d now pages) (.inr (Pages.upsertAll_onlyPagesOf d now pages))
      listPages := hkept (.look (Pages.list_readOnly d))
        (.inl fun _ => (Pages.list_readOnly d).keeps _) }
  exact .of_issues (p.gather_issues hcollects keys) hstays (fun _ _ hm => ⟨.inl rfl, hm⟩)
    fun ht s _ hs => ht s hs

/-- What the poll knows of the document of the job that it has read. -/
def Knows (job : Job) (m : Moment σ) : Prop :=
  ∀ d, documentOf job = .ok d → m.1.Extracting job.id d

section Check
variable {job : Job} (hstays : ∀ m m', others m m' → ∀ d, m.1.Extracting job.id d →
  m'.1.Extracting job.id d)
include hstays

theorem finalize_amid : (p.finalize job).Amid (polling w others job.id) (Knows job)
    (fun _ _ => True) fun _ _ => True := by
  have hknows : (polling w others job.id).Stable (Knows job) :=
    fun m m' hm h d hd => hstays m m' hm d (h d hd)
  rw [finalize_eq]
  refine .ofExcept_bind (fun _ _ _ _ => trivial) fun staging _ => ?_
  refine .ofExcept_bind (fun _ _ _ _ => trivial) fun d hd => ?_
  refine Run.Amid.bind (R := fun _ => Knows job) (.demand hknows rfl fun m o x hm _ => ?_)
    fun found => ?_
  · refine ⟨.inl rfl, ?_⟩
    cases o with
    | ok found => exact hm
    | error e => trivial
  · have hgather := p.gather_amid (w := w) (found.filter Ocr.Shard.isShardKey)
      fun m m' hm => hstays m m' hm d
    refine Run.Amid.bind (R := fun _ _ => True) (hgather.conseq (fun m hm => hm d hd)
      (fun _ _ _ => trivial) fun _ _ _ => trivial) fun c => ?_
    have hclose (inputKey : String) (keys : List String) :
        (close job.id d inputKey keys c).Issues fun _ _ t => t.SparesPages :=
      (deleteFiles_issues (.insertEvent job.id) _).bind fun cleanupFailed =>
        Run.Issues.clock.bind fun now => (Run.Issues.transact
          (.completeJob job.id d c cleanupFailed now.timestamp)).bind fun _ => Run.Issues.pure _
    exact amid_of_issues (hclose _ _)

theorem proceed_amid (state : Ocr.OperationStatus) :
    (p.proceed job state).Amid (polling w others job.id) (Knows job) (fun _ _ => True)
      fun _ _ => True := by
  have hnothing {ε α : Type} {r : Run ε α} (hr : r.Amid (polling w others job.id)
      (fun _ => True) (fun _ _ => True) fun _ _ => True) : r.Amid (polling w others job.id)
      (Knows job) (fun _ _ => True) fun _ _ => True :=
    hr.pre fun _ _ => trivial
  unfold proceed
  split
  · have halive : (p.ledger.signalAlive job.id).Issues fun _ _ t => t.SparesPages :=
      Run.Issues.clock.bind fun now => Run.Issues.transact
        (.guarded (.alive (p.ledger.deadline now)) job.id now.timestamp)
    exact hnothing (amid_of_issues (halive.widen.bind fun _ => Run.Issues.pure _))
  · split
    · exact hnothing (fail_amid job _ none)
    · refine Run.Amid.bind (R := fun _ _ => True) (.outcome (p.finalize_amid hstays)) fun o => ?_
      cases o with
      | ok report => exact .pure fun _ h => h
      | error e =>
        unfold settle
        dsimp only
        split
        · exact (fail_amid job _ _).bind fun _ => .throw fun _ h => h
        · exact .throw fun _ h => h

theorem check_amid : (p.check job).Amid (polling w others job.id) (Knows job) (fun _ _ => True)
    fun _ _ => True := by
  have hknows : (polling w others job.id).Stable (Knows job) :=
    fun m m' hm h d hd => hstays m m' hm d (h d hd)
  unfold check
  split
  · exact (fail_amid job _ none).pre fun _ _ => trivial
  case h_2 handle _ =>
    refine Run.Amid.bind (R := fun _ => Knows job)
      (.ask hknows rfl fun m o x hm _ => ⟨.inl rfl, hm⟩) fun o => ?_
    cases o with
    | ok state => exact p.proceed_amid hstays state
    | error e =>
      have hreport : (Ledger.report job.id .warning (some "poll") "Operation status check failed"
          e).Issues fun _ _ t => t.SparesPages :=
        Run.Issues.clock.bind fun now => Run.Issues.transact (.insertEvent _ _ _ _ _ _)
      have hrest : Run.Issues (fun _ _ t => t.SparesPages)
          (Run.widen (Ledger.report job.id .warning (some "poll") "Operation status check failed" e)
            >>= fun _ => throw (.ofOcr e) : Run PipelineError JobReport) :=
        hreport.widen.bind fun _ => Run.Issues.throw _
      exact (amid_of_issues hrest).pre fun _ _ => trivial

end Check

/-- The job is read before anything is written. -/
theorem poll_amid
    (hagrees : ∀ m m', others m m' → m.1.Agrees jobId → m'.1.Agrees jobId)
    (hstays : ∀ m m', others m m' → ∀ d, m.1.Extracting jobId d → m'.1.Extracting jobId d) :
    (p.poll jobId).Amid (polling w others jobId) (fun m => m.1.Agrees jobId) (fun _ _ => True)
      fun _ _ => True := by
  refine Run.Amid.bind (R := fun job m => job.id = jobId ∧ (job.status = .polling → Knows job m))
    (.widen (Ledger.find_amid hagrees fun m hm => ?_)) fun job => ?_
  · refine Jobs.find_wp ⟨fun _ h => (nomatch h), fun _ => trivial⟩
      (fun r hr hid job hshows => ⟨fun job' h => ?_, fun h => nomatch h⟩) fun _ => trivial
    obtain rfl := Option.some.inj h
    have hjob : job.id = jobId := hshows.id.trans hid
    refine ⟨hjob, fun hpolling d hd => ?_⟩
    have hopen : Jobs.isOpen jobId r = true := by
      refine Jobs.isOpen_iff.mpr ⟨hid, ?_⟩
      rw [hshows.isActive_eq, hpolling]
      rfl
    have hdoc : r.documentId = some d := by
      unfold documentOf at hd
      rw [← hshows.documentId]
      split at hd
      case h_1 id hid => rw [hid, Except.ok.inj hd]
      case h_2 => cases hd
    exact ⟨hm.sound, ⟨r, hr, hjob ▸ hopen, hdoc⟩, hm.document r hr hopen d hdoc⟩
  · refine .given fun hid => ?_
    subst hid
    split
    · exact (Run.Amid.ofExcept _).pre fun _ _ => trivial
    case isFalse hpolling =>
      have hstatus : job.status = .polling := by simpa using hpolling
      refine .ofExcept_bind (fun _ _ _ _ => trivial) fun jobType _ => ?_
      split
      · exact (Run.Amid.ofExcept _).pre fun _ _ => trivial
      · exact (p.check_amid hstays).pre fun _ hm => hm hstatus

/-- A flow that changes nothing in the store. -/
def idling (w : Surroundings σ) (others : Moment σ → Moment σ → Prop) : Company σ where
  world := w
  others := others
  own m m' := m'.1 = m.1
  looks _ := rfl

/-- A poll that finds its job ended does nothing. -/
theorem ended_poll_idle
    (hended : ∀ m m', others m m' → m.1.Sound ∧ m.1.Closed jobId → m'.1.Sound ∧ m'.1.Closed jobId) :
    (p.poll jobId).Amid (idling w others) (fun m => m.1.Sound ∧ m.1.Closed jobId)
      (fun _ _ => True) fun _ _ => True := by
  refine Run.Amid.bind (R := fun job _ => job.status ≠ .polling)
    (.widen (Ledger.find_amid hended fun m hm => ?_)) fun job => ?_
  · refine Jobs.find_wp ⟨fun _ h => (nomatch h), fun _ => trivial⟩
      (fun r hr hid job hshows => ⟨fun job' h => ?_, fun h => nomatch h⟩) fun _ => trivial
    obtain rfl := Option.some.inj h
    have hrefused := hm.2.refused hm.1 r hr
    intro hpolling
    have hactive : r.isActive = true := by
      rw [hshows.isActive_eq, hpolling]
      rfl
    rw [Jobs.isOpen_iff.mpr ⟨hid, hactive⟩] at hrefused
    cases hrefused
  · refine .learn (fun _ hm => hm) fun hstatus => ?_
    rw [if_pos (by simpa using hstatus)]
    exact (Run.Amid.ofExcept _).pre fun _ _ => trivial

end Pipeline

/-- What others have to see to while a poll is under way: they do not take an open job from its
document, nor a document from the job that extracts it; and they open no job again. -/
structure Pipeline.Considerate {σ : Type} (others : Moment σ → Moment σ → Prop) (jobId : String) :
    Prop where
  agrees : ∀ m m', others m m' → m.1.Agrees jobId → m'.1.Agrees jobId
  stays : ∀ m m', others m m' → ∀ d, m.1.Extracting jobId d → m'.1.Extracting jobId d
  ended : ∀ m m', others m m' → m.1.Sound ∧ m.1.Closed jobId → m'.1.Sound ∧ m'.1.Closed jobId

/-- Others issue harmless transactions. -/
def Harmlessly {σ : Type} : Moment σ → Moment σ → Prop := Relation.ReflTransGen fun m m' =>
  ∃ (ε α : Type) (t : Txn ε α), Harmless ε α t ∧ m'.1 = (t.run m.1).2

theorem Harmlessly.keeps {σ : Type} {I : Store → Prop} (hI : Spared I) {m m' : Moment σ}
    (h : Harmlessly m m') (hm : I m.1) : I m'.1 := by
  induction h with
  | refl => exact hm
  | tail _ hstep ih =>
    obtain ⟨ε, α, t, ht, hrun⟩ := hstep
    rw [hrun]
    exact (hI.keeps ht).run ih

theorem Pipeline.Considerate.harmlessly (σ : Type) (jobId : String) :
    Considerate (Harmlessly (σ := σ)) jobId where
  agrees _ _ h := h.keeps (Store.Agrees.spared jobId)
  stays _ _ h d := h.keeps (Store.Extracting.spared jobId d)
  ended _ _ h := h.keeps (Store.Closed.unharmed jobId).toSpared

/-- Others have their turns between the steps of a poll, and see to it that an open job keeps its
document processing and is not settled. Then the poll writes pages only at moments at which its job
is open and the document of it is processing, and only pages of that document. If the job has ended
when the poll begins, the poll changes nothing at all. -/
theorem poll_writes_while_extracting {σ : Type} {w : Surroundings σ}
    {others : Moment σ → Moment σ → Prop} {p : Pipeline} {jobId : String}
    (hothers : Pipeline.Considerate others jobId) {m a z : Moment σ}
    (hmove : w.Moves others (p.poll jobId).run m a z) :
    (m.1.Agrees jobId → z.1.pages = a.1.pages ∨
      ∃ d, a.1.Extracting jobId d ∧ a.1.OnlyPagesOf d z.1) ∧
    (m.1.Sound → m.1.Closed jobId → z.1 = a.1) :=
  ⟨fun hm => (p.poll_amid (w := w) hothers.agrees hothers.stays).own hm hmove,
    fun hsound hclosed =>
      (p.ended_poll_idle (w := w) hothers.ended).own ⟨hsound, hclosed⟩ hmove⟩

namespace Background

/-- The key of a shard. -/
def shardKey : String := staging.outputFolder ++ "0.json"

theorem reads_shard (s : Store) :
    Surroundings.free.Runs (Pipeline.readShards [shardKey]).run (s, ()) (.ok [[⟨1, "a"⟩]])
      (s, ()) :=
  ⟨.ok (shard (some 1) "a").data, (s, ()), ⟨rfl, trivial⟩, .of_done rfl _⟩

/-- The store after the page of the shard was stored. -/
def written (s : Store) : Store :=
  ((Pages.upsertAll "d" start.timestamp [Ocr.Page.asFound ⟨1, "a"⟩]).run s).2

/-- Others turn the store into another one after the poll has read its job; the page is stored. -/
theorem written_of_others {others : Moment Unit → Moment Unit → Prop} (hwaits : ∀ m, others m m)
    (htrans : ∀ m₁ m₂ m₃, others m₁ m₂ → others m₂ m₃ → others m₁ m₃) {s : Store}
    (h : others (store, ()) (s, ())) :
    Surroundings.free.Moves others (pipeline.poll "j").run (store, ()) (s, ()) (written s, ()) := by
  have hmerge : Ocr.Shard.merge [[⟨1, "a"⟩]] = [⟨1, "a"⟩] := List.mergeSort_singleton _
  have hcollect : Surroundings.free.Moves others (pipeline.collect "j" "d" [shardKey]).run (s, ())
      (s, ()) (written s, ()) := by
    refine .next hwaits (reads_shard s) ?_
    show Surroundings.free.Moves others ((do
      let cleaned ← ExceptT.lift (pipeline.cleanPages "j" (Ocr.Shard.merge [[⟨1, "a"⟩]]))
      pipeline.storePages "j" "d" cleaned
      return ⟨UInt32.ofNat cleaned.length, (cleaned.filter (·.cleaningFailed)).length⟩ :
        Run PipelineError Collected)).run _ _ _
    rw [hmerge]
    exact ⟨(s, ()), hwaits _, start, (s, ()), ⟨rfl, trivial⟩, .inr
      ⟨(s, ()), hwaits _, _, (written s, ()), ⟨rfl, rfl⟩, .inl ⟨rfl, rfl⟩⟩⟩
  have hfinalize : Surroundings.free.Moves others (pipeline.finalize job).run (s, ()) (s, ())
      (written s, ()) := by
    rw [Pipeline.finalize_eq]
    refine .run_next hwaits (b := staging) (.of_done rfl _) ?_
    refine .run_next hwaits (b := "d") (.of_done rfl _) ?_
    refine .run_next hwaits (b := [shardKey])
      ⟨.ok [shardKey], (s, ()), ⟨rfl, trivial⟩, .of_done rfl _⟩ ?_
    exact .run_first _ hcollect
  refine .run_next hwaits (b := job) ⟨.ok (some job), (store, ()), ⟨rfl, rfl⟩, .of_done rfl _⟩ ?_
  show Surroundings.free.Moves others (pipeline.check job).run _ _ _
  refine .run_next hwaits (b := .ok ⟨true, none, none⟩)
    ⟨.ok ⟨true, none, none⟩, (store, ()), ⟨rfl, trivial⟩, .of_done rfl _⟩ ?_
  exact .wait htrans h (.run_first _ (.first _ hfinalize))

theorem store_extracting : store.Extracting "j" "d" :=
  ⟨store_quiet.calm.sound, ⟨_, List.mem_singleton_self _, rfl, rfl⟩,
    ⟨_, List.mem_singleton_self _, rfl, rfl⟩⟩

theorem store_agrees : store.Agrees "j" := by
  refine ⟨store_quiet.calm.sound, fun r hr _ d hd => ?_⟩
  obtain rfl := List.mem_singleton.mp hr
  obtain rfl := Option.some.inj hd
  exact store_extracting.document

end Background

/-- Others do no harm, and the poll stores a page of the document that it extracts. -/
theorem poll_writes_undisturbed :
    Surroundings.free.Moves Harmlessly (Background.pipeline.poll "j").run (Background.store, ())
        (Background.store, ()) (Background.written Background.store, ()) ∧
      (Background.written Background.store).pages ≠ Background.store.pages ∧
      ∃ d, Background.store.OnlyPagesOf d (Background.written Background.store) := by
  have hmove : Surroundings.free.Moves Harmlessly (Background.pipeline.poll "j").run
      (Background.store, ()) (Background.store, ()) (Background.written Background.store, ()) :=
    Background.written_of_others (fun _ => .refl) (fun _ _ _ h h' => h.trans h') .refl
  have hwrites : (Background.written Background.store).pages ≠ Background.store.pages :=
    List.cons_ne_nil _ _
  obtain ⟨hwhile, -⟩ := poll_writes_while_extracting
    (Pipeline.Considerate.harmlessly Unit "j") hmove
  obtain ⟨d, -, honly⟩ := (hwhile Background.store_agrees).resolve_left hwrites
  exact ⟨hmove, hwrites, d, honly⟩

/-- A poll has read its job when a sweep fails job and document. Then it stores a page all the
same. -/
theorem poll_writes_after_sweep :
    let a := Background.swept Background.store
    Background.store.Reachable ∧ Background.store.Extracting "j" "d" ∧
    Surroundings.free.Moves (fun m m' => m.1.Becomes m'.1) (Background.pipeline.poll "j").run
        (Background.store, ()) (a, ()) (Background.written a, ()) ∧
      a.Closed "j" ∧ (∃ r ∈ a.documents, r.id = "d" ∧ r.status = .failed) ∧
      a.pages = [] ∧ (Background.written a).pages ≠ [] := by
  intro a
  have hbecomes : Background.store.Becomes a :=
    Background.becomes_swept rfl rfl rfl ⟨_, rfl⟩
  refine ⟨Background.store_quiet.reachable, Background.store_extracting,
    Background.written_of_others (fun _ => .refl _) (fun _ _ _ h h' => h.trans h') hbecomes,
    ⟨_, List.mem_singleton_self _, rfl, rfl⟩, ⟨_, List.mem_singleton_self _, rfl, rfl⟩, rfl, ?_⟩
  exact List.cons_ne_nil _ _

end Quire
