import Quire.Proofs.Flow.Statements
import Quire.Proofs.Pipeline.Agreement

/-! How the transactions keep documents and jobs in agreement.

Each transaction that ends an extraction ends the processing of its document in the same breath,
and a failed one changes nothing. The lock makes a document processing by a job that is under way
from then on; it is polled, or it ends with its document. -/
namespace Quire
open Txn Jobs

namespace Store
variable {s s' : Store} {busy : Option String} {jobId now : String} {c : Change} {d : String}

theorem changed_jobs (h : s'.jobs = s.jobs) :
    (changed s' jobId now c).jobs = (changed s jobId now c).jobs := congrArg (changeWhere _ _) h

theorem Calm.empty : Store.empty.Calm busy := by
  refine ⟨⟨.empty, ?_, ?_⟩, ?_⟩
  · exact fun _ h => nomatch h
  · exact fun _ h => nomatch h
  · exact fun _ h => nomatch h

theorem Calm.of_same (h : s.Calm busy) (hdocuments : s'.documents = s.documents)
    (hjobs : s'.jobs = s.jobs) : s'.Calm busy :=
  ⟨h.toLinked.of_same hdocuments hjobs, hjobs ▸ h.polling⟩

/-- A change that does not end its job, or one of a job on no document; only the job that is under
way is set running. -/
theorem Calm.change (h : s.Calm busy)
    (hstart : c.target? = some .polling → ∀ r ∈ s.jobs, isOpen jobId r = true →
      r.isExtraction = true ∧ (c.apply now r).HasStaging)
    (hlink : c.ends = false ∨ s.HasJobOn jobId none)
    (hrun : c.target? = some .running → ∀ r ∈ s.jobs, isOpen jobId r = true →
      r.isExtraction = true → busy = some r.id) : (changed s jobId now c).Calm busy := by
  refine ⟨h.toLinked.change hstart hlink, fun r' hr' hactive hkind => ?_⟩
  obtain ⟨r, hr, rfl⟩ := mem_changeWhere.mp hr'
  by_cases hopen : isOpen jobId r = true
  · rw [if_pos hopen] at hactive hkind ⊢
    have hkind' : r.isExtraction = true := by
      unfold JobRow.isExtraction at hkind ⊢
      rwa [c.apply_jobType] at hkind
    have hpolling := h.polling r hr (isOpen_iff.mp hopen).2 hkind'
    rw [c.apply_id]
    cases c with
    | running => exact .inr (hrun rfl r hr hopen hkind')
    | polling handle params timeoutAt => exact .inl rfl
    | completed result => cases hactive
    | failed message => cases hactive
    | alive timeoutAt => exact hpolling
    | progressed done total percent step => exact hpolling
  · rw [if_neg hopen] at hactive hkind ⊢
    exact h.polling r hr hactive hkind

/-- A job ends with the processing of its document, and nothing is under way any more. -/
theorem Calm.ends (h : s.Calm busy) (hbusy : ∀ j, busy = some j → j = jobId)
    (hc : c.ends = true) (howns : s.Owns jobId d)
    (hjobs : s'.jobs = (changed s jobId now c).jobs)
    (hdocuments : EndsProcessing d s.documents s'.documents) : s'.Calm none := by
  refine ⟨h.toLinked.ends hc howns hjobs hdocuments, fun r' hr' hactive hkind => ?_⟩
  obtain ⟨r, hr, rfl⟩ := mem_changeWhere.mp (hjobs ▸ hr')
  by_cases hopen : isOpen jobId r = true
  · rw [if_pos hopen, Change.isActive_of_ends hc] at hactive
    cases hactive
  · rw [if_neg hopen] at hactive hkind ⊢
    rcases h.polling r hr hactive hkind with hpolling | hunder
    · exact .inl hpolling
    · exact absurd (isOpen_iff.mpr ⟨hbusy _ hunder, hactive⟩) hopen

/-- An open job is the only one on its document that has not ended. -/
theorem Sound.owns (h : s.Sound) (hjob : s.HasJobOn jobId (some d))
    (hopen : ∃ r ∈ s.jobs, isOpen jobId r = true) : s.Owns jobId d := by
  refine ⟨hjob, fun r hr hactive hdoc => ?_⟩
  obtain ⟨r₀, hr₀, hid₀, hdoc₀⟩ := hjob
  obtain ⟨r₁, hr₁, hopen₁⟩ := hopen
  obtain ⟨hid₁, hactive₁⟩ := isOpen_iff.mp hopen₁
  obtain rfl : r₁ = r₀ := h.job_unique hr₁ hr₀ (hid₁.trans hid₀.symm)
  rw [h.active_unique hr hr₁ hactive hactive₁ hdoc hdoc₀, hid₁]

end Store

/-! ### Harmless transactions -/

section Durable
variable {X : Store → Prop} {busy : Option String}

theorem Durable.spared (hX : Durable X) : Spared fun s => s.Calm busy ∧ X s := by
  refine .of_tables ?_ fun id now c hc s hs => ?_
  · intro s s' hdocuments hjobs hs
    exact ⟨hs.1.of_same hdocuments hjobs, hX (.inl hjobs) hs.2⟩
  · rw [statement_wp hs.1.sound.apart]
    refine ⟨hs.1.change ?_ (.inl ?_) ?_, hX (.inr ⟨id, now, c, rfl⟩) hs.2⟩
    · simp [hc]
    · simp [Change.ends, hc]
    · simp [hc]

end Durable

/-! ### Ends -/

section Ends
variable {X : Store → Prop} {d : String}

/-- Failing a job fails its document. -/
theorem Pipeline.failJob_calm (hX : Durable X) {job : Job} (hdoc : job.documentId = some d)
    (hjob : ∀ s, X s → s.HasJobOn job.id (some d)) (message : String) (detail : Option String)
    (now : String) : (failJob job message detail now).Keeps fun s => s.Calm none ∧ X s := by
  intro s hs
  unfold failJob
  rw [wp_bind, wp_widen]
  refine guarded_wp hs.1.sound.apart (.failed message) job.id now (fun hopen => ?_)
    fun _ _ => trivial
  have howns := hs.1.sound.owns (hjob s hs.2) hopen
  simp only [hdoc, wp_bind, wp_widen]
  refine Documents.markFailed_wp fun _ s₁ hdocuments hjobs => ?_
  rw [wp_widen]
  refine wp_mono ((insertEvent_aside _ _ _ _ _ _).wp _) (fun _ s' hsame => ?_) fun _ h => h
  have hjobs' := hsame.2.trans hjobs
  refine ⟨hs.1.ends (by simp) rfl howns hjobs' (hsame.1 ▸ hdocuments), ?_⟩
  exact hX (.inr ⟨job.id, now, .failed message, hjobs'⟩) hs.2

/-- Completing a job makes its document a draft. -/
theorem Pipeline.completeJob_calm (hX : Durable X) {jobId : String}
    (hjob : ∀ s, X s → s.HasJobOn jobId (some d)) (c : Collected) (cleanupFailed : Bool)
    (now : String) :
    (completeJob jobId d c cleanupFailed now).Keeps fun s => s.Calm none ∧ X s := by
  intro s hs
  unfold completeJob
  simp only [wp_bind, wp_widen]
  refine Documents.markDraft_wp fun _ s₁ hdocuments hjobs => ?_
  simp only [wp_bind, wp_widen, wp_require]
  refine ⟨fun _ => ?_, fun _ => trivial⟩
  refine guarded_wp (hjobs ▸ hs.1.sound.apart) (.completed (some (summary c cleanupFailed))) jobId
    now (fun hopen => ?_) fun _ _ => trivial
  have howns := hs.1.sound.owns (hjob s hs.2) (hjobs ▸ hopen)
  rw [wp_widen]
  refine wp_mono ((insertEvent_aside _ _ _ _ _ _).wp _) (fun _ s' hsame => ?_) fun _ h => h
  have hjobs' := hsame.2.trans (Store.changed_jobs hjobs)
  refine ⟨hs.1.ends (by simp) (by rfl) howns hjobs' (hsame.1 ▸ hdocuments), ?_⟩
  exact hX (.inr ⟨jobId, now, _, hjobs'⟩) hs.2

/-- Sweeping a job fails its document, if it is on one. -/
theorem Sweep.failJob_calm (hX : Durable X) {job : Job}
    (hjob : ∀ s, X s → s.HasJobOn job.id job.documentId) (stamp : String) :
    (failJob job stamp).Keeps fun s => s.Calm none ∧ X s := by
  intro s hs
  unfold failJob
  rw [wp_bind, wp_widen]
  refine (statement_wp hs.1.sound.apart (.failed (message job)) job.id stamp).mpr ?_
  split
  case isTrue hnone =>
    -- The job has ended before: nothing is changed.
    have hclosed : ∀ r ∈ s.jobs, isOpen job.id r = false := by
      simpa [List.filter_eq_nil_iff] using hnone
    have hjobs : (changed s job.id stamp (.failed (message job))).jobs = s.jobs :=
      changeWhere_none hclosed
    exact ⟨hs.1.of_same rfl hjobs, hX (.inl hjobs) hs.2⟩
  case isFalse hsome =>
    have hopen : ∃ r ∈ s.jobs, isOpen job.id r = true := by
      simpa [List.filter_eq_nil_iff] using hsome
    have hrow := hjob s hs.2
    rw [wp_bind, wp_widen]
    refine wp_mono ((insertEvent_aside _ _ _ _ _ _).wp _) (fun _ s₁ hsame => ?_) fun _ h => h
    cases hdoc : job.documentId with
    | none =>
      rw [hdoc] at hrow
      refine ⟨?_, hX (.inr ⟨job.id, stamp, _, hsame.2⟩) hs.2⟩
      have hcalm : (changed s job.id stamp (.failed (message job))).Calm none :=
        hs.1.change nofun (.inr hrow) nofun
      exact hcalm.of_same hsame.1 hsame.2
    | some d =>
      rw [hdoc] at hrow
      have howns := hs.1.sound.owns hrow hopen
      simp only [wp_bind, wp_widen]
      refine Documents.markFailed_wp fun _ s' hdocuments hjobs => ?_
      have hjobs' := hjobs.trans hsame.2
      refine ⟨hs.1.ends (by simp) rfl howns hjobs' (hsame.1 ▸ hdocuments), ?_⟩
      exact hX (.inr ⟨job.id, stamp, _, hjobs'⟩) hs.2

/-- A change of a job on no document concerns no document. -/
theorem Jobs.detached_calm (hX : Durable X) {jobId : String}
    (hjob : ∀ s, X s → s.HasJobOn jobId none) (now : String) (c : Change)
    (hc : c.target? ≠ some .polling) :
    (guarded jobId (c.statement jobId now)).Keeps fun s => s.Calm none ∧ X s := by
  refine guarded_keeps (fun s hs => ?_) jobId
  rw [statement_wp hs.1.sound.apart]
  refine ⟨hs.1.change ?_ (.inr (hjob s hs.2)) ?_, hX (.inr ⟨jobId, now, c, rfl⟩) hs.2⟩
  · exact fun h => absurd h hc
  · intro _ r hr hopen hkind
    obtain ⟨r₀, hr₀, hid₀, hdoc₀⟩ := hjob s hs.2
    obtain rfl : r = r₀ :=
      hs.1.sound.job_unique hr hr₀ ((isOpen_iff.mp hopen).1.trans hid₀.symm)
    have := (hs.1.rows r hr).document.mp hkind
    rw [hdoc₀] at this
    cases this

end Ends

/-! ### What is under way -/

section UnderWay
variable {s : Store} {jobId d : String}

/-- An extraction that is under way: it owns its document, and all others are polled. -/
def Store.Extracts (jobId d : String) (s : Store) : Prop := s.Calm (some jobId) ∧ s.Owns jobId d

theorem Store.Owns.isExtraction (h : s.Owns jobId d) (hlinked : s.Linked) {r : JobRow}
    (hr : r ∈ s.jobs) (hid : r.id = jobId) : r.isExtraction = true := by
  obtain ⟨r₀, hr₀, hid₀, hdoc₀⟩ := h.row
  obtain rfl : r = r₀ := hlinked.sound.job_unique hr hr₀ (hid.trans hid₀.symm)
  exact (hlinked.rows r hr).document.mpr (by simp [hdoc₀])

theorem Store.Owns.hasJob (h : s.Owns jobId d) : s.hasJob jobId = true := by
  obtain ⟨r, hr, hid, -⟩ := h.row
  exact hasJob_iff.mpr ⟨r, hr, hid⟩

/-- An extraction that is under way is set running. -/
theorem markRunning_extracts (h : s.Extracts jobId d)
    (hopen : ∃ r ∈ s.jobs, isOpen jobId r = true) (now : String) :
    (guarded jobId (Change.running.statement jobId now)).wp (fun _ => Store.Extracts jobId d)
      (fun _ => False) s := by
  refine guarded_wp h.1.sound.apart .running jobId now (fun _ => ?_) fun hclosed => ?_
  · refine ⟨h.1.change nofun (.inl rfl) fun _ r _ hr _ => ?_, ?_⟩
    · rw [(isOpen_iff.mp hr).1]
    · exact Durable.owns jobId d (.inr ⟨jobId, now, .running, rfl⟩) h.2
  · obtain ⟨r, hr, hopen⟩ := hopen
    exact absurd hopen (by simp [hclosed r hr])

theorem stored_staging (staging : Staging) :
    (StoredJson.ofJson staging.toJson).read = .ok staging.toJson ∧
      Json.readValue Staging.shape staging.toJson = .ok staging := ⟨rfl, rfl⟩

/-- From now on the extraction is polled, like all others. -/
theorem markPolling_extracts (h : s.Extracts jobId d) (handle now timeoutAt : String)
    (staging : Staging) :
    (guarded jobId ((Change.polling handle staging.toJson timeoutAt).statement jobId now)).wp
      (fun _ s' => s'.Calm none ∧ s'.Owns jobId d) (fun _ => True) s := by
  refine guarded_wp h.1.sound.apart (.polling handle staging.toJson timeoutAt) jobId now
    (fun _ => ?_) fun _ _ => trivial
  have hcalm : (changed s jobId now (.polling handle staging.toJson timeoutAt)).Calm
      (some jobId) := by
    refine h.1.change (fun _ r hr hopen => ?_) (.inl rfl) nofun
    obtain ⟨hread, hvalue⟩ := stored_staging staging
    exact ⟨h.2.isExtraction h.1.toLinked hr (isOpen_iff.mp hopen).1, _, staging, hread, hvalue⟩
  refine ⟨⟨hcalm.toLinked, fun r' hr' hactive hkind => ?_⟩, ?_⟩
  · -- The only extraction that was not polled is the one that is polled now.
    rcases hcalm.polling r' hr' hactive hkind with hpolling | hbusy
    · exact .inl hpolling
    · obtain ⟨r, hr, rfl⟩ := mem_changeWhere.mp hr'
      by_cases hopen : isOpen jobId r = true
      · rw [if_pos hopen]
        exact .inl rfl
      · rw [if_neg hopen] at hactive hbusy
        exact absurd (isOpen_iff.mpr ⟨(Option.some.inj hbusy).symm, hactive⟩) hopen
  · exact Durable.owns jobId d (.inr ⟨jobId, now, _, rfl⟩) h.2

/-- Finishing an extraction at once makes its document a draft. -/
theorem Pipeline.finishWith_extracts (h : s.Extracts jobId d) {document : Document}
    (hdocument : document.id = d) (pages : List NewPage) (source now : String) :
    (finishWith document jobId pages source now).wp (fun _ s' => s'.Calm none) (fun _ => True)
      s := by
  unfold finishWith
  simp only [wp_bind, wp_widen]
  refine wp_mono ((Pages.upsertAll_aside document.id now pages).wp s) (fun _ s₁ hsame => ?_)
    fun _ h => h
  have hcalm : s₁.Calm (some jobId) := h.1.of_same hsame.1 hsame.2
  have howns : s₁.Owns jobId d := Durable.owns jobId d (.inl hsame.2) h.2
  simp only [wp_bind, wp_widen]
  refine Documents.markDraft_wp fun _ s₂ hdocuments hjobs => ?_
  simp only [wp_bind, wp_widen, wp_require]
  refine ⟨fun _ => ?_, fun _ => trivial⟩
  refine guarded_wp (hjobs ▸ hcalm.sound.apart) (.completed _) jobId now (fun _ => ?_)
    fun _ _ => trivial
  exact hcalm.ends (fun _ hj => (Option.some.inj hj).symm) (by rfl) howns (Store.changed_jobs hjobs)
    (hdocument ▸ hdocuments)

/-- A failed ingestion is recorded whatever has become of its job. -/
theorem Pipeline.recordFailure_extracts (h : s.Extracts jobId d) {document : Document}
    (hdocument : document.id = d) (e : PipelineError) (now : String) :
    (recordFailure document jobId e now).wp (fun _ s' => s'.Calm none) (fun _ => False) s := by
  unfold recordFailure
  rw [wp_bind]
  refine (statement_wp h.1.sound.apart (.failed e.publicMessage) jobId now).mpr ?_
  rw [wp_bind]
  refine Documents.markFailed_wp fun _ s₁ hdocuments hjobs => ?_
  have hthere : s₁.hasJob jobId = true :=
    (Durable.owns jobId d (.inr ⟨jobId, now, _, hjobs⟩) h.2).hasJob
  simp only [insertEvent, wp_bind, wp_store, wp_require, wp_modify, hthere]
  refine ⟨fun _ => ?_, by simp⟩
  exact h.1.ends (fun _ hj => (Option.some.inj hj).symm) rfl h.2 hjobs (hdocument ▸ hdocuments)

end UnderWay
end Quire
