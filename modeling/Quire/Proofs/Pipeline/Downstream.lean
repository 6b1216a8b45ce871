import Quire.Proofs.Flow.Deeds
import Quire.Proofs.Pipeline.Publishing
import Quire.Proofs.Store.Pages
import Quire.Proofs.Store.Versions
import Quire.Proofs.Flow.Dialogue
import Quire.Proofs.Flow.Interleaving

/-! What a generation job works on.

A publication makes a version of the texts that count at that moment, and may queue a job on it.
Whatever happens afterwards, the version stays as it is and the job keeps what it was given; so
when the job is run the generator gets the texts as they were published, however the pages have
been changed since. -/
namespace Quire
open Txn

/-! ### What a flow gives the generator

A flow is followed whatever it is answered, as long as its transactions meet stores with a certain
property: others may change the store between its questions, but they leave that property alone.
So it is enough to look at the questions of the flow itself to know which texts the generator ever
gets from it. This is a dialogue in which only the questions to the generator count. -/

section Prompts
variable {α β ε : Type} {I : Store → Prop} {P : String → QuestionParams → Prop} {Q : α → Prop}

/-- If the generator is asked, it is asked for something of a kind. -/
def Effect.Prompts (P : String → QuestionParams → Prop) : Effect β → Prop
  | .generate text q => P text q
  | _ => True

/-- The generator is asked for nothing else. -/
def Dialogue.prompting (P : String → QuestionParams → Prop) : Dialogue :=
  ⟨fun _ _ _ => True, Effect.Prompts P, fun _ _ => True⟩

/-- The generator is asked for nothing else, and transactions meet stores with a property. -/
abbrev Flow.Prompts (I : Store → Prop) (P : String → QuestionParams → Prop) (Q : α → Prop)
    (f : Flow α) : Prop := f.Abides ((Dialogue.prompting P).among I) Q

abbrev Run.Prompts (I : Store → Prop) (P : String → QuestionParams → Prop) (Q : α → Prop)
    (r : Run ε α) : Prop := r.Abides ((Dialogue.prompting P).among I) Q

theorem Dialogue.allows_prompting {e : Effect β} :
    ((prompting P).among I).Allows e ↔ e.Prompts P := by
  cases e <;> exact Iff.rfl

theorem Flow.Prompts.ask {op : Effect β} {next : β → Flow α} :
    Flow.Prompts I P Q (.ask op next) ↔
      op.Prompts P ∧ ∀ b, op.Gives I b → (next b).Prompts I P Q := by
  refine Flow.Abides.ask.trans (and_congr Dialogue.allows_prompting (forall_congr' fun b => ?_))
  exact imp_congr_left (and_iff_left trivial)

end Prompts

/-! ### What a job was given -/

/-- The job of an id was given something to work on. -/
def Store.HasTask (jobId : String) (task : GenerationJobParams) (s : Store) : Prop :=
  ∃ r ∈ s.jobs, r.id = jobId ∧
    ∃ j, r.params.read = .ok j ∧ Json.readValue GenerationJobParams.shape j = .ok task

theorem Jobs.Change.apply_params {c : Change} (hc : c.target? ≠ some .polling) (now : String)
    (r : JobRow) : (c.apply now r).params = r.params := by
  cases c with
  | polling handle params timeoutAt => exact absurd rfl hc
  | _ => rfl

/-- A job keeps what it was given, unless it is given an operation to poll. -/
theorem Store.HasTask.unharmed (jobId : String) (task : GenerationJobParams) :
    UnharmedFor (· ≠ jobId) fun s => s.Sound ∧ s.HasTask jobId task := by
  refine .of_jobs (fun hjobs h => ?_) (fun id now c hc _ h => ?_) fun n id now heartbeat h => ?_
  · unfold HasTask
    rw [hjobs]
    exact h
  · obtain ⟨r, hr, rfl, htask⟩ := h
    refine ⟨_, mem_changeWhere.mpr ⟨r, hr, rfl⟩, ?_⟩
    split
    case isTrue hopen =>
      have hother : c.target? ≠ some .polling := fun hpolling =>
        hc hpolling (Jobs.isOpen_iff.mp hopen).1.symm
      rw [c.apply_id, Jobs.Change.apply_params hother]
      exact ⟨rfl, htask⟩
    case isFalse => exact ⟨rfl, htask⟩
  · obtain ⟨r, hr, htask⟩ := h
    exact ⟨r, List.mem_append_left _ hr, htask⟩

/-! ### What a run gives the generator -/

/-- A store with a version, and with a job that generates questions on it. -/
structure Store.Entrusts (jobId : String) (v : Version) (questions : QuestionParams) (s : Store) :
    Prop where
  sound : s.Sound
  version : s.HasVersion v
  task : s.HasTask jobId ⟨v.id, questions⟩
  detached : s.HasJobOn jobId none

section Prompts
variable {I : Store → Prop} {P : String → QuestionParams → Prop}

/-- The generator gets the text that questions are wanted for, if it gets any. -/
theorem QuestionCache.getOrGenerate_prompts {text : String} {q : QuestionParams} (h : P text q)
    (ownerId : String) (documentId : Option String) :
    (getOrGenerate ownerId documentId text q).Prompts I P fun _ => True :=
  getOrGenerate_abides trivial trivial h (fun _ => trivial) fun _ _ _ => trivial

namespace GenerationJob
variable {jobId : String} {v : Version} {questions : QuestionParams}

/-- The job that is found has the task that it was given. -/
theorem find_prompts :
    (Ledger.find jobId).Prompts (Store.Entrusts jobId v questions) P fun job =>
      paramsOf job = .ok ⟨v.id, questions⟩ := by
  refine Ledger.find_abides trivial fun s hs r' hr' hid' job hshows => ?_
  obtain ⟨r, hr, hid, j, hj, hread⟩ := hs.task
  rw [hs.sound.job_unique hr' hr (hid'.trans hid.symm)] at hshows
  have hparams : job.params = j := Except.ok.inj (hshows.params.symm.trans hj)
  unfold paramsOf
  rw [hparams, hread]

/-- A job with its task asks for questions on the text of the version. -/
theorem generate_prompts {job : Job} (hjob : paramsOf job = .ok ⟨v.id, questions⟩) :
    (generate job).Prompts (Store.Entrusts jobId v questions)
      (fun text q => text = v.joinedText ∧ q = questions) fun _ => True := by
  refine (generate_abides (R := fun p v' => p = ⟨v.id, questions⟩ ∧ v' = v) (fun p hp => ?_)
    fun p v' hp hv => ?_).any
  · obtain rfl := Except.ok.inj (hp.symm.trans hjob)
    refine .transact trivial fun s hs => wp_of_run (Versions.find_run v.id s) fun v' hv' => ?_
    exact ⟨rfl, Option.some.inj (hv'.symm.trans hs.version.find?)⟩
  · obtain ⟨rfl, rfl⟩ := hv
    exact QuestionCache.getOrGenerate_prompts ⟨rfl, rfl⟩ _ _

/-- A run of the job asks for nothing but questions on the text of the version. -/
theorem run_prompts :
    (run jobId).Prompts (Store.Entrusts jobId v questions)
      (fun text q => text = v.joinedText ∧ q = questions) fun _ => True :=
  run_abides trivial ⟨fun _ => trivial, fun _ _ => trivial, fun _ _ => trivial,
    fun _ _ _ _ _ => trivial⟩ find_prompts fun _ hjob _ => generate_prompts hjob

end GenerationJob
end Prompts

/-! ### What a publication leaves behind -/

/-- The texts of a draft that count have become a version, and a job was queued on it if wanted. -/
structure Store.Freezes (s s' : Store) (d owner : String) (o : PublishOptions) (p : Published)
    (v : Version) : Prop where
  id : v.id = p.versionId
  documentId : v.documentId = d
  texts : s.Froze d v.snapshot
  versions : s'.versions = s.versions ++ [v]
  newId : ∀ w ∈ s.versions, w.id ≠ v.id
  jobs : o.Queues s.jobs s'.jobs owner p.versionId p.generationJobId

section Publishing
variable {s s' : Store} {d owner : String} {o : PublishOptions} {p : Published} {v : Version}

/-- The version is there, and the job has it as its task. -/
theorem Store.Freezes.entrusts (h : s.Freezes s' d owner o p v) (hs' : s'.Sound) {jobId : String}
    (hqueued : p.generationJobId = some jobId) : s'.Entrusts jobId v o.questions := by
  have hjobs := h.jobs
  unfold PublishOptions.Queues at hjobs
  split at hjobs
  case isTrue =>
    obtain ⟨r, hadded, hid, hr⟩ := hjobs
    obtain rfl : r.id = jobId := Option.some.inj (hid.symm.trans hqueued)
    have hmem : r ∈ s'.jobs := by simp [hadded]
    obtain ⟨j, hj, hread⟩ := hr.params
    refine ⟨hs', ?_, ⟨r, hmem, rfl, j, hj, h.id ▸ hread⟩, ⟨r, hmem, rfl, hr.documentId⟩⟩
    unfold Store.HasVersion
    rw [h.versions]
    exact Store.HasVersion.added h.newId
  case isFalse =>
    rw [hjobs.2] at hqueued
    cases hqueued

namespace Pipeline

theorem snapshot_froze (hs : s.Keyed) (d : String) :
    (snapshot d).wp (fun pages s' => s' = s ∧ s.Froze d pages) (fun _ => True) s := by
  unfold snapshot
  rw [wp_bind]
  refine (wp_iff_run _).mpr ⟨fun listed hlist => ?_, fun _ _ => trivial⟩
  exact ⟨(Pages.list_readOnly d s).run rfl, Store.froze_of_list hs hlist⟩

/-- Where a draft is published, its texts that count become a version. -/
theorem publishDraft_freezes (hs : s.Keyed) (d owner : String) (o : PublishOptions)
    (ids : PublishIds) (now : Instant) (heartbeat : Respite) :
    (publishDraft d owner o ids now heartbeat).wp
      (fun p s' => ∃ v, s.Freezes s' d owner o p v) (fun _ => True) s := by
  unfold publishDraft
  rw [wp_bind]
  refine wp_mono (draftToPublish_readOnly d owner s s rfl) ?_ fun _ h => h
  rintro document s₁ rfl
  rw [wp_bind, wp_widen]
  refine wp_mono (snapshot_froze hs d) ?_ fun _ h => h
  rintro pages s₂ ⟨rfl, hfroze⟩
  rw [wp_bind, wp_widen]
  refine wp_mono (Versions.next_wp d document.activeVersion s₂) ?_ fun _ h => h
  rintro number s₃ ⟨rfl, -, -⟩
  rw [wp_bind, wp_widen]
  refine wp_mono (Versions.insert_added _ s₃) ?_ fun _ h => h
  rintro - s₄ ⟨hnew, rfl⟩
  simp only [Documents.markPublished, Documents.changeFrom, wp_bind, wp_widen, wp_store, wp_modify,
    wp_pure, wp_require]
  refine ⟨fun _ => ?_, fun _ => trivial⟩
  cases hgenerates : o.generates with
  | false => exact ⟨_, rfl, rfl, hfroze, rfl, hnew, .none hgenerates⟩
  | true =>
    simp only [if_true, wp_bind, wp_map, wp_widen, queueGeneration, Jobs.insert]
    rw [Jobs.insertRow_wp]
    split
    · trivial
    · split
      · trivial
      · split
        · have hjob := generationJob_generates owner o.questions ids now heartbeat
          exact ⟨_, rfl, rfl, hfroze, rfl, hnew, .one hgenerates hjob⟩
        · trivial

end Pipeline
end Publishing

/-! ### Since the publication -/

/-- Somebody's draft is published. -/
inductive Scene.Publishes (d owner : String) (o : PublishOptions) (p : Published) :
    Scene → Scene → Prop
  | turn (s s' : Store) (before after : List (Flow Unit)) (ids : PublishIds) (now : Instant)
      (heartbeat : Respite) (next : Except PipelineError Published → Flow Unit) :
      (Pipeline.publishDraft d owner o ids now heartbeat).run s = (.ok p, s') →
      Publishes d owner o p
        ⟨s, before ++ .ask (.transact (Pipeline.publishDraft d owner o ids now heartbeat)) next ::
          after⟩
        ⟨s', before ++ next (.ok p) :: after⟩

namespace Scene
variable {jobId d owner : String} {o : PublishOptions} {p : Published} {v : Version}
  {questions : QuestionParams} {c c' : Scene}

theorem Publishes.stir (h : Publishes d owner o p c c') (jobId : String) : Stir jobId c c' := by
  cases h with
  | turn s s' before after ids now heartbeat next hrun =>
    exact .answer s s' before after _ next (.ok p) ⟨hrun, rfl⟩

theorem Publishes.freezes (h : Publishes d owner o p c c') (hkeyed : c.store.Keyed) :
    ∃ v, c.store.Freezes c'.store d owner o p v := by
  cases h with
  | turn s s' before after ids now heartbeat next hrun =>
    have hwp := Pipeline.publishDraft_freezes hkeyed d owner o ids now heartbeat
    rw [wp_iff_run, hrun] at hwp
    exact hwp.1 p rfl

/-- Whatever is done, the version stays and the job keeps its task. -/
theorem Steady.entrusts (h : Steady jobId c) (hstirs : Relation.ReflTransGen (Stir jobId) c c')
    (hc : c.store.Entrusts jobId v questions) : c'.store.Entrusts jobId v questions := by
  obtain ⟨-, hlasts⟩ := h.stirs hstirs
  have htask := hlasts.detached hc.sound hc.detached _
    (Store.HasTask.unharmed jobId ⟨v.id, questions⟩) ⟨hc.sound, hc.task⟩
  exact ⟨hlasts.sound hc.sound, hlasts.always _ (Store.HasVersion.unharmed v) hc.version, htask.2,
    hlasts.hasJobOn hc.sound hc.detached⟩

/-- A flow stands where it stood, or it has gone one question further. -/
theorem Stir.prompts {I : Store → Prop} {P : String → QuestionParams → Prop} {i : Nat}
    {f : Flow Unit} (hstir : Stir jobId c c') (hI : I c.store) (hf : c.flows[i]? = some f)
    (hprompts : f.Prompts I P fun _ => True) :
    ∃ f', c'.flows[i]? = some f' ∧ f'.Prompts I P fun _ => True := by
  cases hstir with
  | deed s flows deed hd =>
    refine ⟨f, ?_, hprompts⟩
    rw [List.getElem?_append_left (List.getElem?_eq_some_iff.mp hf).1]
    exact hf
  | answer s s' before after op next b hb =>
    by_cases hi : i = before.length
    · subst hi
      obtain rfl : .ask op next = f := by simpa using hf
      refine ⟨next b, by simp, ?_⟩
      exact (Flow.Prompts.ask.mp hprompts).2 b (Effect.gives_of_answers hI hb)
    · refine ⟨f, ?_, hprompts⟩
      have hset : before ++ next b :: after =
          (before ++ .ask op next :: after).set before.length (next b) := by simp
      rw [hset, List.getElem?_set_ne (Ne.symm hi)]
      exact hf

/-- A flow that asks for nothing but the text of the version asks for nothing else later. -/
theorem Steady.prompts {P : String → QuestionParams → Prop} {i : Nat} {f : Flow Unit}
    (h : Steady jobId c) (hc : c.store.Entrusts jobId v questions) (hf : c.flows[i]? = some f)
    (hprompts : f.Prompts (Store.Entrusts jobId v questions) P fun _ => True)
    (hstirs : Relation.ReflTransGen (Stir jobId) c c') :
    ∃ f', c'.flows[i]? = some f' ∧
      f'.Prompts (Store.Entrusts jobId v questions) P fun _ => True := by
  induction hstirs with
  | refl => exact ⟨f, hf, hprompts⟩
  | tail hmid hstir ih =>
    obtain ⟨f', hf', hprompts'⟩ := ih
    exact hstir.prompts (h.entrusts hmid hc) hf' hprompts'

end Scene

/-- Where a draft is published and a job is queued, its texts that count become a version. Whatever
is done from then on, short of giving that job an operation by hand, the version stays as it was
written, and nothing overwrites or removes a version; and if a run of the job asks the generator
for anything, then for the questions that were wanted, on these texts in the order of the pages. -/
theorem generation_sees_published_texts {s : Store} (hs : s.Sound) (hkeyed : s.Keyed)
    {jobId d owner : String} {o : PublishOptions} {p : Published} {c c' : Scene}
    (hbefore : Relation.ReflTransGen (Scene.Stir jobId) ⟨s, []⟩ c)
    (hpublishes : Scene.Publishes d owner o p c c') (hqueued : p.generationJobId = some jobId) :
    ∃ v, c.store.Freezes c'.store d owner o p v ∧ Snapshot.read v.column = .ok v.snapshot ∧
      ∀ later, Relation.ReflTransGen (Scene.Stir jobId) c' later →
        later.store.versions.filter (·.id == v.id) = [v] ∧
        (∀ q f, later.store.versions.any q = true →
          (Versions.alter q f).run later.store =
            (.error (.violation .immutable), later.store)) ∧
        ∀ last, Relation.ReflTransGen (Scene.Stir jobId)
            ⟨later.store, later.flows ++ [(Call.generate jobId).flow]⟩ last →
          ∀ text q next, last.flows[later.flows.length]? = some (.ask (.generate text q) next) →
            text = "\n\n".intercalate (v.snapshot.map (·.text)) ∧ q = o.questions := by
  obtain ⟨hsteady, hlasts⟩ := (Scene.Steady.quiet hs).stirs hbefore
  have hkeyed' : c.store.Keyed := hlasts.always _ Store.Keyed.unharmed hkeyed
  obtain ⟨v, hfreezes⟩ := hpublishes.freezes hkeyed'
  obtain ⟨hsteady', -⟩ := hsteady.stir (hpublishes.stir jobId)
  have hpublished := hfreezes.entrusts hsteady'.sound hqueued
  refine ⟨v, hfreezes, Snapshot.read_text v.snapshot, fun later hlater => ?_⟩
  have hentrusts := hsteady'.entrusts hlater hpublished
  refine ⟨hentrusts.version, fun q f hq => ?_, fun last hlast text q next hasks => ?_⟩
  · rw [Versions.alter_run, if_pos hq]
  · have hbegun : Scene.Steady jobId ⟨later.store, later.flows ++ [(Call.generate jobId).flow]⟩ :=
      ((hsteady'.stirs hlater).1.stir (.deed _ _ (.call (.generate jobId)) trivial)).1
    obtain ⟨f, hf, hprompts⟩ := hbegun.prompts hentrusts List.getElem?_concat_length
      GenerationJob.run_prompts.ignored hlast
    obtain rfl := Option.some.inj (hasks.symm.trans hf)
    exact (Flow.Prompts.ask.mp hprompts).1

/-! ### A page that is written anew -/

namespace Rewritten
open Surroundings (free)

def now : Instant := ⟨0, 0⟩

def publishing : Txn PipelineError Published :=
  Pipeline.publishDraft "d" "o" .standard ⟨"v8", "g"⟩ now .minute

def version : Version := ⟨"v8", "d", 8, [⟨1, "uno"⟩, ⟨2, "two"⟩], "o", now.timestamp, none⟩

/-- The draft is published, and a job is queued on its version. -/
def published : Store :=
  { leftBehind with
    versions := leftBehind.versions ++ [version]
    documents := leftBehind.documents.map (·.asPublished 8 none now.timestamp)
    jobs := [(Pipeline.generationJob "o" "v8" .standard).row "g" now .minute] }

/-- The first page says something else. -/
def edited : Store := ((Pages.setEdit "d" 1 (some "dos") "o" "t").run published).2

def running : Store := ((Ledger.running "g" now).run edited).2

theorem snapshot_run :
    (Pipeline.snapshot "d").run leftBehind = (.ok [⟨1, "uno"⟩, ⟨2, "two"⟩], leftBehind) := by
  have hsorted : (leftBehind.pages.filter (·.documentId == "d")).mergeSort
      (fun a b => a.pageNo.le b.pageNo) =
      [rawPage 2 1 (some "one") (some "uno"), rawPage 1 2 (some "two") none] := by
    simp [leftBehind, List.mergeSort, List.MergeSort.Internal.splitInTwo, rawPage, Cell.le,
      Cell.ofNat]
  rw [← wp_eq_run]
  unfold Pipeline.snapshot Pages.list
  rw [wp_bind, wp_bind, wp_store]
  dsimp only
  rw [hsorted]
  rfl

theorem publishing_run :
    publishing.run leftBehind = (.ok ⟨"d", "v8", 8, some "g"⟩, published) := by
  obtain ⟨document, hdraft, hactive⟩ : ∃ document : Document,
      (Pipeline.draftToPublish "d" "o").run leftBehind = (.ok document, leftBehind) ∧
        document.activeVersion = 1 := ⟨_, rfl, rfl⟩
  rw [← wp_eq_run]
  unfold publishing Pipeline.publishDraft
  rw [wp_bind]
  refine wp_of_run hdraft ?_
  rw [wp_bind, wp_widen, hactive]
  exact wp_of_run snapshot_run rfl

/-- The call that publishes the draft, up to its transaction. -/
theorem publishing_asked : ∃ next, free.Reaches
    (Call.publish ⟨.minute⟩ "d" "o" .standard).flow (leftBehind, ())
    (.ask (.transact publishing) next) (leftBehind, ()) :=
  ⟨_, .inr ⟨now, (leftBehind, ()), ⟨rfl, trivial⟩, .inr ⟨"v8", (leftBehind, ()), ⟨rfl, trivial⟩,
    .inr ⟨"g", (leftBehind, ()), ⟨rfl, trivial⟩, .inl ⟨rfl, rfl⟩⟩⟩⟩⟩

/-- The page is written anew, while what is under way waits. -/
theorem editing (waiting : Flow Unit) : Relation.ReflTransGen (Scene.Stir "g")
    ⟨published, [waiting]⟩ ⟨edited, [waiting, .done ()]⟩ :=
  .head (.deed published [waiting] (.setEdit "d" 1 (some "dos") "o" "t") trivial)
    (.single (.answer published edited [waiting] [] _ _ _ ⟨rfl, rfl⟩))

/-- The run of the job, up to the generator. -/
theorem generator_asked : ∃ next, free.Reaches (Call.generate "g").flow (edited, ())
    (.ask (.generate "uno\n\ntwo" .standard) next) (running, ()) :=
  ⟨_, .inr ⟨_, (edited, ()), ⟨rfl, rfl⟩, .inr ⟨now, (edited, ()), ⟨rfl, trivial⟩,
    .inr ⟨_, (running, ()), ⟨rfl, rfl⟩,
    .inr ⟨_, (running, ()), ⟨Versions.find_run "v8" running, rfl⟩,
    .inr ⟨_, (running, ()), ⟨rfl, rfl⟩, .inl ⟨rfl, rfl⟩⟩⟩⟩⟩⟩⟩

end Rewritten

/-- After a draft has been published a page of it is written anew; still the generator gets the
texts as they were. -/
theorem generation_sees_published_texts_rewritten :
    ∃ (later last : Scene) (v : Version)
        (next : Except GenerationError (List Question) → Flow Unit),
      later.store = Rewritten.edited ∧
      (∃ r ∈ later.store.pages, r.pageNo = .ofNat 1 ∧ r.editedText = some "dos") ∧
      Relation.ReflTransGen (Scene.Stir "g")
        ⟨later.store, later.flows ++ [(Call.generate "g").flow]⟩ last ∧
      last.flows[later.flows.length]? =
        some (.ask (.generate "uno\n\ntwo" .standard) next) ∧
      later.store.versions.filter (·.id == v.id) = [v] ∧
      "uno\n\ntwo" = "\n\n".intercalate (v.snapshot.map (·.text)) := by
  obtain ⟨asking, hasking⟩ := Rewritten.publishing_asked
  obtain ⟨next, hnext⟩ := Rewritten.generator_asked
  have hbefore : Relation.ReflTransGen (Scene.Stir "g") ⟨leftBehind, []⟩
      ⟨leftBehind, [] ++ [.ask (.transact Rewritten.publishing) asking]⟩ :=
    .head (.deed leftBehind [] (.call (.publish ⟨.minute⟩ "d" "o" .standard)) trivial)
      (Scene.Stir.of_reaches [] [] hasking)
  have hpublishes := Scene.Publishes.turn leftBehind Rewritten.published [] [] ⟨"v8", "g"⟩
    Rewritten.now .minute asking Rewritten.publishing_run
  have hedited := Rewritten.editing (asking (.ok ⟨"d", "v8", 8, some "g"⟩))
  obtain ⟨v, -, -, hsince⟩ := generation_sees_published_texts leftBehind_intact.toSound
    leftBehind_intact.keyed hbefore hpublishes rfl
  obtain ⟨hversion, -, hasked⟩ := hsince _ hedited
  have hlast : Relation.ReflTransGen (Scene.Stir "g") _ _ :=
    Scene.Stir.of_reaches [asking (.ok ⟨"d", "v8", 8, some "g"⟩), .done ()] [] hnext
  exact ⟨_, _, v, next, rfl, ⟨_, List.mem_cons_of_mem _ List.mem_cons_self, rfl, rfl⟩, hlast, rfl,
    hversion, (hasked _ hlast _ _ next rfl).1⟩

end Quire
