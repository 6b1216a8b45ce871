import Quire.Proofs.Job.Change
import Quire.Proofs.Store.Veil
import Quire.Store.Artifacts
import Quire.Store.Versions

/-! Statements behind a veil.

Every statement takes stores that look alike to stores that look alike. What it is told may differ
where the veil hides it: the time of a change, the trace of an event. -/
namespace Quire
open Txn

/-! ### Rows that look alike -/

section Rows
variable {ρ : Type} {g : ρ → ρ} {p : ρ → Bool} {rows rows' : List ρ}

/-- There is nothing on either side, or there are rows that look alike. -/
theorem map_eq_cases {r r' : Option ρ} (h : r.map g = r'.map g) :
    (r = none ∧ r' = none) ∨ ∃ a a', r = some a ∧ r' = some a' ∧ g a = g a' := by
  cases r with
  | none =>
    cases r' with
    | none => exact .inl ⟨rfl, rfl⟩
    | some a' => cases h
  | some a =>
    cases r' with
    | none => cases h
    | some a' => exact .inr ⟨a, a', rfl, rfl, Option.some.inj h⟩

theorem find?_cases (hp : ∀ r, p (g r) = p r) (h : rows.map g = rows'.map g) :
    (rows.find? p = none ∧ rows'.find? p = none) ∨
      ∃ r r', rows.find? p = some r ∧ rows'.find? p = some r' ∧ g r = g r' := by
  have hfind : ∀ l : List ρ, (l.map g).find? p = (l.find? p).map g := fun l => by
    rw [List.find?_map, show p ∘ g = p from funext hp]
  exact map_eq_cases (by rw [← hfind rows, ← hfind rows', h])

theorem map_filter_eq (hp : ∀ r, p (g r) = p r) (h : rows.map g = rows'.map g) :
    (rows.filter p).map g = (rows'.filter p).map g := by
  have hfilter : ∀ l : List ρ, (l.map g).filter p = (l.filter p).map g := fun l => by
    rw [List.filter_map, show p ∘ g = p from funext hp]
  rw [← hfilter rows, ← hfilter rows', h]

theorem any_eq (hp : ∀ r, p (g r) = p r) (h : rows.map g = rows'.map g) :
    rows.any p = rows'.any p := by
  have hany : ∀ l : List ρ, (l.map g).any p = l.any p := fun l => by
    rw [List.any_map, show p ∘ g = p from funext hp]
  rw [← hany rows, ← hany rows', h]

theorem length_eq (h : rows.map g = rows'.map g) : rows.length = rows'.length := by
  simpa using congrArg List.length h

theorem map_changeWhere_eq {f f' : ρ → ρ} (hp : ∀ r, p (g r) = p r)
    (hf : ∀ r r', g r = g r' → g (f r) = g (f' r')) (h : rows.map g = rows'.map g) :
    (changeWhere p f rows).map g = (changeWhere p f' rows').map g := by
  induction rows generalizing rows' with
  | nil =>
    cases rows' with
    | nil => rfl
    | cons r' rest' => cases h
  | cons r rest ih =>
    cases rows' with
    | nil => cases h
    | cons r' rest' =>
      obtain ⟨hhead, htail⟩ := List.cons.inj h
      have hsame : p r = p r' := by rw [← hp r, ← hp r', hhead]
      rw [changeWhere_cons, changeWhere_cons, List.map_cons, List.map_cons, ih htail, hsame]
      congr 1
      split
      · exact hf r r' hhead
      · exact hhead

end Rows

variable {v : Veil} {s s' : Store}

/-! ### Documents -/

theorem Store.hasDocument_alike (h : s.veiled v = s'.veiled v) (id : String) :
    s.hasDocument id = s'.hasDocument id :=
  any_eq (g := DocumentRow.veiled v) (fun _ => rfl) (congrArg Store.documents h)

namespace Documents

theorem find_alike (id : String) :
    (find id).Alike v (fun d d' => d.map (Document.veiled v) = d'.map (Document.veiled v))
      (find id) := by
  refine .bind .store fun s s' hs => ?_
  obtain ⟨hr, hr'⟩ | ⟨r, r', hr, hr', h⟩ := find?_cases (g := DocumentRow.veiled v)
    (p := fun r : DocumentRow => r.id == id) (fun _ => rfl) (congrArg Store.documents hs)
  · rw [hr, hr']
    exact .pure rfl
  · rw [hr, hr']
    exact .found (DocumentRow.read_veiled v) h

theorem changeFrom_alike (id : String) (allowed : List DocumentStatus)
    {f f' : DocumentRow → DocumentRow}
    (hf : ∀ r r', r.veiled v = r'.veiled v → (f r).veiled v = (f' r').veiled v) :
    (changeFrom id allowed f).Alike v Eq (changeFrom id allowed f') := by
  refine .bind .store fun s s' hs => .next (.modify fun n n' hn => ?_) fun _ => .pure ?_
  · have hchanged := map_changeWhere_eq (g := DocumentRow.veiled v)
      (p := fun r : DocumentRow => r.id == id && allowed.contains r.status) (fun _ => rfl) hf
      (congrArg Store.documents hn)
    exact congrArg₂ (fun (n : Store) (rows : List DocumentRow) => { n with documents := rows }) hn
      hchanged
  · exact length_eq (map_filter_eq (g := DocumentRow.veiled v) (fun _ => rfl)
      (congrArg Store.documents hs))

/-- A change of a row, but for the time of the change, is the same on either side. -/
theorem moved_alike (id : String) (allowed : List DocumentStatus) {f : DocumentRow → DocumentRow}
    (hf : ∀ r, (f r).veiled v = f (r.veiled v)) {now now' : String}
    (hnow : v.time now = v.time now') :
    (changeFrom id allowed fun r => { f r with updatedAt := now }).Alike v Eq
      (changeFrom id allowed fun r => { f r with updatedAt := now' }) := by
  refine changeFrom_alike id allowed fun r r' hr => ?_
  have hrows : (f r).veiled v = (f r').veiled v := by rw [hf, hf, hr]
  exact congrArg₂ (fun (d : DocumentRow) time => { d with updatedAt := time }) hrows hnow

variable {now now' : String} (hnow : v.time now = v.time now')
include hnow

theorem transition_alike (id : String) (allowed : List DocumentStatus) (target : DocumentStatus) :
    (transition id allowed target now).Alike v Eq (transition id allowed target now') :=
  moved_alike id allowed (f := fun r => { r with status := target }) (fun _ => rfl) hnow

theorem markDraft_alike (id : String) (pageCount : UInt32) :
    (markDraft id pageCount now).Alike v Eq (markDraft id pageCount now') :=
  moved_alike id _ (f := fun r => { r with status := .draft, pageCount := .ofNat pageCount.toNat })
    (fun _ => rfl) hnow

theorem markFailed_alike (id : String) :
    (markFailed id now).Alike v Eq (markFailed id now') :=
  moved_alike id _ (f := fun r => { r with status := .failed }) (fun _ => rfl) hnow

end Documents

/-! ### Pages -/

namespace Pages

/-- An id to come depends on no time. -/
theorem lastId_eq (h : s.veiled v = s'.veiled v) : lastId s = lastId s' := by
  have hlast : ∀ n : Store, lastId (n.veiled v) = lastId n := fun n => by
    simp only [lastId, Store.veiled, List.foldl_map]
    rfl
  rw [← hlast s, ← hlast s', h]

theorem upsert_alike (documentId : String) (p : NewPage) {now now' : String}
    (hnow : v.time now = v.time now') :
    (upsert documentId p now).Alike v Eq (upsert documentId p now') := by
  refine .next (.require _ _) fun _ => .bind .store fun s s' hs => ?_
  have hthere : s.pages.any (isPage documentId p.pageNo) =
      s'.pages.any (isPage documentId p.pageNo) :=
    any_eq (g := PageRow.veiled v) (fun _ => rfl) (congrArg Store.pages hs)
  rw [hthere, lastId_eq hs, Store.hasDocument_alike hs]
  split
  · refine .modify fun n n' hn => ?_
    have hcontent (r r' : PageRow) (hr : r.veiled v = r'.veiled v) :
        (withContent p r).veiled v = (withContent p r').veiled v := congrArg (withContent p) hr
    have hpages := map_changeWhere_eq (g := PageRow.veiled v) (p := isPage documentId p.pageNo)
      (fun _ => rfl) hcontent (congrArg Store.pages hn)
    exact congrArg₂ (fun (n : Store) (rows : List PageRow) =>
      { n with pages := rows, pageSeq := lastId s' + 1 }) hn hpages
  · refine .next (.require _ _) fun _ => .modify fun n n' hn => ?_
    have hpages : (n.pages ++ [rowOf (lastId s' + 1) documentId p now]).map (PageRow.veiled v) =
        (n'.pages ++ [rowOf (lastId s' + 1) documentId p now']).map (PageRow.veiled v) := by
      rw [List.map_append, List.map_append]
      refine congrArg₂ _ (congrArg Store.pages hn) ?_
      simp [rowOf, withContent, PageRow.veiled, hnow]
    exact congrArg₂ (fun (n : Store) (rows : List PageRow) =>
      { n with pages := rows, pageSeq := lastId s' + 1 }) hn hpages

theorem upsertAll_alike (documentId : String) (pages : List NewPage) {now now' : String}
    (hnow : v.time now = v.time now') :
    (upsertAll documentId now pages).Alike v Eq (upsertAll documentId now' pages) := by
  induction pages with
  | nil => exact .pure rfl
  | cons p rest ih => exact .next (upsert_alike documentId p hnow) fun _ => ih

theorem deleteAll_alike (documentId : String) :
    (deleteAll documentId).Alike v Eq (deleteAll documentId) := by
  refine .bind .store fun s s' hs => .next (.modify fun n n' hn => ?_) fun _ => .pure ?_
  · have hpages := map_filter_eq (g := PageRow.veiled v)
      (p := fun r : PageRow => r.documentId != documentId) (fun _ => rfl) (congrArg Store.pages hn)
    exact congrArg₂ (fun (n : Store) (rows : List PageRow) => { n with pages := rows }) hn hpages
  · exact length_eq (map_filter_eq (g := PageRow.veiled v) (fun _ => rfl) (congrArg Store.pages hs))

theorem list_alike (documentId : String) :
    (list documentId).Alike v (fun ps ps' => ps.map (Page.veiled v) = ps'.map (Page.veiled v))
      (list documentId) := by
  refine .bind .store fun s s' hs => .each (PageRow.read_veiled v) ?_
  have hrows := map_filter_eq (g := PageRow.veiled v)
    (p := fun r : PageRow => r.documentId == documentId) (fun _ => rfl) (congrArg Store.pages hs)
  have hsorted : ∀ rows : List PageRow,
      (rows.mergeSort fun a b => a.pageNo.le b.pageNo).map (PageRow.veiled v) =
        (rows.map (PageRow.veiled v)).mergeSort fun a b => a.pageNo.le b.pageNo :=
    fun rows => List.map_mergeSort fun _ _ _ _ => rfl
  rw [hsorted, hsorted, hrows]

end Pages
/-! ### Jobs -/

theorem Store.hasJob_alike (h : s.veiled v = s'.veiled v) (id : String) :
    s.hasJob id = s'.hasJob id :=
  any_eq (g := JobRow.veiled v) (fun _ => rfl) (congrArg Store.jobs h)

namespace Jobs

theorem find_alike (id : String) :
    (find id).Alike v (fun j j' => j.map (Job.veiled v) = j'.map (Job.veiled v)) (find id) := by
  refine .bind .store fun s s' hs => ?_
  obtain ⟨hr, hr'⟩ | ⟨r, r', hr, hr', h⟩ := find?_cases (g := JobRow.veiled v)
    (p := fun r : JobRow => r.id == id) (fun _ => rfl) (congrArg Store.jobs hs)
  · rw [hr, hr']
    exact .pure rfl
  · rw [hr, hr']
    exact .found (JobRow.read_veiled v) h

/-- A row clashes with the rows with which a row that looks like it does. -/
theorem clashes_eq {r r' : JobRow} (h : r.veiled v = r'.veiled v) {rows rows' : List JobRow}
    (hrows : rows.map (JobRow.veiled v) = rows'.map (JobRow.veiled v)) :
    rows.any r.clashes = rows'.any r'.clashes := by
  have hany : rows.any r.clashes = rows'.any r.clashes :=
    any_eq (g := JobRow.veiled v) (fun _ => rfl) hrows
  rw [hany, show r.clashes = (r.veiled v).clashes from rfl, h]
  rfl

theorem insertRow_alike {r r' : JobRow} (hr : r.veiled v = r'.veiled v) :
    (insertRow r).Alike v Eq (insertRow r') := by
  refine .bind .store fun s s' hs => ?_
  have hid : r.id = r'.id := (congrArg JobRow.id hr :)
  have hdoc : r.documentId = r'.documentId := (congrArg JobRow.documentId hr :)
  have hrefers : refersWell s r.documentId = refersWell s' r'.documentId := by
    rw [hdoc]
    cases r'.documentId with
    | none => rfl
    | some id => exact Store.hasDocument_alike hs id
  rw [clashes_eq hr (congrArg Store.jobs hs), Store.hasJob_alike hs, hid, hrefers]
  refine .next (.require _ _) fun _ => .next (.require _ _) fun _ => .next (.require _ _) fun _ =>
    .modify fun n n' hn => ?_
  have hjobs : (n.jobs ++ [r]).map (JobRow.veiled v) = (n'.jobs ++ [r']).map (JobRow.veiled v) := by
    rw [List.map_append, List.map_append, List.map_singleton, List.map_singleton, hr]
    exact congrArg (· ++ _) (congrArg Store.jobs hn)
  exact congrArg₂ (fun (n : Store) (rows : List JobRow) => { n with jobs := rows }) hn hjobs

/-- Rows are changed alike, or the same rule is broken. -/
theorem changeRows_alike {p : JobRow → Bool} {f f' : JobRow → JobRow}
    (hp : ∀ r, p (r.veiled v) = p r)
    (hf : ∀ r r', r.veiled v = r'.veiled v → (f r).veiled v = (f' r').veiled v)
    {above above' rows rows' : List JobRow}
    (habove : above.map (JobRow.veiled v) = above'.map (JobRow.veiled v))
    (hrows : rows.map (JobRow.veiled v) = rows'.map (JobRow.veiled v)) :
    List.map (JobRow.veiled v) <$> changeRows p f above rows =
      List.map (JobRow.veiled v) <$> changeRows p f' above' rows' := by
  induction rows generalizing above above' rows' with
  | nil =>
    cases rows' with
    | nil =>
      have hreverse := congrArg List.reverse habove
      rw [← List.map_reverse, ← List.map_reverse] at hreverse
      exact congrArg Except.ok hreverse
    | cons r' rest' => cases hrows
  | cons r rest ih =>
    cases rows' with
    | nil => cases hrows
    | cons r' rest' =>
      obtain ⟨hhead, htail⟩ := List.cons.inj hrows
      have hsame : p r = p r' := by rw [← hp r, ← hp r', hhead]
      have hchanged : (f r).veiled v = (f' r').veiled v := hf r r' hhead
      have hothers : (above ++ rest).map (JobRow.veiled v) =
          (above' ++ rest').map (JobRow.veiled v) := by
        rw [List.map_append, List.map_append, habove, htail]
      unfold changeRows
      rw [hsame, clashes_eq hchanged hothers]
      split
      · split
        · rfl
        · exact ih (by rw [List.map_cons, List.map_cons, hchanged, habove]) htail
      · exact ih (by rw [List.map_cons, List.map_cons, hhead, habove]) htail

theorem changeOpen_alike (id : String) {f f' : JobRow → JobRow}
    (hf : ∀ r r', r.veiled v = r'.veiled v → (f r).veiled v = (f' r').veiled v) :
    (changeOpen id f).Alike v Eq (changeOpen id f') := by
  refine .bind .store fun s s' hs => .bind (.ofExcept (f := List.map (JobRow.veiled v)) ?_)
    fun rows rows' hrows => .next (.modify fun n n' hn => ?_) fun _ => .pure ?_
  · exact changeRows_alike (fun _ => rfl) hf rfl (congrArg Store.jobs hs)
  · exact congrArg₂ (fun (n : Store) (rows : List JobRow) => { n with jobs := rows }) hn hrows
  · exact length_eq (map_filter_eq (g := JobRow.veiled v) (fun _ => rfl) (congrArg Store.jobs hs))

/-- A change behind a veil. -/
def Change.veiled (v : Veil) : Change → Change
  | .polling handle params timeoutAt => .polling handle params (v.time timeoutAt)
  | .alive timeoutAt => .alive (v.time timeoutAt)
  | c => c

theorem Change.apply_veiled (c : Change) (now : String) (r : JobRow) :
    (c.apply now r).veiled v = (c.veiled v).apply (v.time now) (r.veiled v) := by
  cases c <;> rfl

theorem statement_alike {c c' : Change} (hc : c.veiled v = c'.veiled v) (id : String)
    {now now' : String} (hnow : v.time now = v.time now') :
    (c.statement id now).Alike v Eq (c'.statement id now') := by
  rw [c.statement_eq, c'.statement_eq]
  refine changeOpen_alike id fun r r' hr => ?_
  rw [Change.apply_veiled, Change.apply_veiled, hc, hnow, hr]

theorem guarded_alike {c c' : Change} (hc : c.veiled v = c'.veiled v) (id : String)
    {now now' : String} (hnow : v.time now = v.time now') :
    (guarded id (c.statement id now)).Alike v Eq (guarded id (c'.statement id now')) := by
  refine .next (statement_alike hc id hnow).widen fun changed => ?_
  unfold ensureChanged
  split
  · exact .pure rfl
  · refine .bind (find_alike id).widen fun j j' hj => ?_
    obtain ⟨rfl, rfl⟩ | ⟨job, job', rfl, rfl, hjobs⟩ := map_eq_cases hj
    · exact .fail _
    · have hstatus : job.status = job'.status := (congrArg Job.status hjobs :)
      show Alike v Eq (Txn.fail (JobError.terminal id job.status) : Txn JobError Unit)
        (Txn.fail (JobError.terminal id job'.status))
      rw [hstatus]
      exact .fail _

end Jobs

theorem tryAcquire_alike (n : NewJob) (id : String) (now : Instant) (heartbeat : Respite) :
    (tryAcquire n id now heartbeat).Alike v Eq (tryAcquire n id now heartbeat) := by
  refine .next (.attempt (Jobs.insertRow_alike rfl)) fun o => ?_
  cases o with
  | ok _ => exact .pure rfl
  | error e =>
    dsimp only
    split
    · exact .pure rfl
    · exact .fail e

/-! ### Events -/

namespace Jobs

theorem lastEventId_eq (h : s.veiled v = s'.veiled v) : lastEventId s = lastEventId s' := by
  have hlast : ∀ n : Store, lastEventId (n.veiled v) = lastEventId n := fun n => by
    simp only [lastEventId, Store.veiled, List.foldl_map]
    rfl
  rw [← hlast s, ← hlast s', h]

/-- Two events are added that look alike, whichever id they are given. -/
theorem insertEvent_alike (jobId : String) (kind : EventKind) (step : Option String)
    {message message' : String} {trace trace' : Option String} {now now' : String}
    (h : ∀ id, (⟨id, jobId, kind, step, message, trace, now⟩ : EventRow).veiled v =
      (⟨id, jobId, kind, step, message', trace', now'⟩ : EventRow).veiled v) :
    (insertEvent jobId kind step message trace now).Alike v Eq
      (insertEvent jobId kind step message' trace' now') := by
  refine .bind .store fun s s' hs => ?_
  rw [Store.hasJob_alike hs, lastEventId_eq hs]
  refine .next (.require _ _) fun _ => .modify fun n n' hn => ?_
  have hevents := congrArg₂ (· ++ [·]) (congrArg Store.events hn) (h (lastEventId s' + 1))
  simp only [Store.veiled, ← List.map_singleton, ← List.map_append] at hevents
  exact congrArg₂ (fun (n : Store) (rows : List EventRow) =>
    { n with events := rows, eventSeq := lastEventId s' + 1 }) hn hevents

/-- Events with the same message look alike. -/
theorem insertEvent_told (jobId : String) (kind : EventKind) (step : Option String)
    (message : String) (trace trace' : Option String) {now now' : String}
    (hnow : v.time now = v.time now') :
    (insertEvent jobId kind step message trace now).Alike v Eq
      (insertEvent jobId kind step message trace' now') :=
  insertEvent_alike jobId kind step fun id => by
    simp [EventRow.veiled, EventRow.isFailedGeneration, hnow]

end Jobs

/-! ### Versions and artifacts -/

namespace Versions

theorem find_alike (versionId : String) : (find versionId).Alike v Eq (find versionId) := by
  refine .bind .store fun s s' hs => ?_
  rw [show s.versions = s'.versions from (congrArg Store.versions hs :)]
  cases s'.versions.find? (·.id == versionId) with
  | none => exact .pure rfl
  | some version => exact .bind (.ofExcept (f := id) rfl) fun _ _ h => .pure (congrArg some h)

end Versions

namespace Artifacts

theorem find_alike (ownerId sourceHash : String) :
    (find ownerId sourceHash).Alike v Eq (find ownerId sourceHash) := by
  refine .bind .store fun s s' hs => ?_
  rw [show s.artifacts = s'.artifacts from (congrArg Store.artifacts hs :)]
  exact .ofExcept (f := id) rfl

theorem insert_alike (a : Artifact) : (insert a).Alike v Eq (insert a) := by
  refine .bind .store fun s s' hs => ?_
  rw [show s.artifacts = s'.artifacts from (congrArg Store.artifacts hs :)]
  refine .next (.require _ _) fun _ => .modify fun n n' hn => ?_
  have hrows : n.artifacts = n'.artifacts := (congrArg Store.artifacts hn :)
  rw [hrows]
  exact congrArg₂ (fun (n : Store) (rows : List ArtifactRow) => { n with artifacts := rows }) hn rfl

theorem insertAll_alike (artifacts : List Artifact) :
    (insertAll artifacts).Alike v Eq (insertAll artifacts) := by
  induction artifacts with
  | nil => exact .pure rfl
  | cons a rest ih => exact .next (insert_alike a) fun _ => ih

end Artifacts
end Quire
