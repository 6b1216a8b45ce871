import Mathlib.Algebra.GroupWithZero.Nat
import Quire.Proofs.Pipeline.Uses

/-! Which way an upload takes.

The text that a file holds by itself is kept if it suffices (`Pipeline.TakesText`). Any other file
that may have more than one page, or is too large to be recognized at once, is copied, and an
operation is started on the copy (`Attempt.Dispatched`); what is left is recognized at once
(`Attempt.Recognized`). No two ways are taken by one upload, and text that does not suffice leaves
no trace but an event. -/
namespace Quire
open Txn

/-! ### The text of a file itself -/

/-- The text that a file holds by itself suffices: it can be read of a file whose pages can be told
apart, that file is not too large, and there is enough of it on all pages together. -/
structure Pipeline.TakesText (p : Pipeline) (t : FileType) (content : ByteArray)
    (reading : ByteArray → Except ProcessError (List String)) (texts : List String) : Prop where
  pdf : t = .pdf
  small : content.size ≤ p.settings.nativeSizeLimit
  read : reading content = .ok texts
  paged : texts ≠ []
  enough : p.settings.nativeTextThreshold ≤ (texts.map fun text => (Text.trim text).length).sum

theorem NativeText.isUsable_iff {texts : List String} {threshold : Nat} :
    isUsable texts threshold = true ↔
      texts ≠ [] ∧ threshold ≤ (texts.map fun text => (Text.trim text).length).sum := by
  have htotal : totalChars texts = (texts.map fun text => (Text.trim text).length).sum := by
    unfold totalChars
    rw [List.sum_eq_foldl, List.foldl_map]
    rfl
  unfold isUsable
  rw [htotal, Bool.and_eq_true, decide_eq_true_eq]
  simp

/-! ### What becomes of an upload -/

/-- The pages of a document have these texts, numbered from one, all of one source. -/
def Store.HoldsTexts (s : Store) (d : String) (source : PageSource) (texts : List String) : Prop :=
  ∃ listed, (Pages.list d).run s = (.ok listed, s) ∧ List.Forall₂ (fun page text =>
    page.pageNo.toNat = text.2 + 1 ∧ page.rawText = some text.1 ∧ page.source = source) listed
    texts.zipIdx

namespace Attempt
variable (a : Attempt)

/-- The document is a draft with some texts. -/
structure Drafted (source : PageSource) (texts : List String) (s : Store) : Prop where
  completed : a.Completed none texts.length s
  holds : s.HoldsTexts a.documentId source texts

/-- Texts are kept, unless there are more of them than pages can be numbered. -/
def Kept (texts : List String) (o : Except PipelineError Ingestion) (s : Store) : Prop :=
  (texts.length < UInt32.size ∧ o = .ok (.completed a.jobId true) ∧ a.Drafted .native texts s) ∨
    (UInt32.size ≤ texts.length ∧ ∃ e, o = .error e ∧ a.Recorded e s)

/-- A copy of the upload is stored, and an operation is started on it. -/
inductive Dispatched (p : Pipeline) (content : ByteArray) (mime : String) :
    Except PipelineError Ingestion → List Use → Store → Prop
  /-- There is no copy. -/
  | unstored {staging : Staging} {body : ByteStream} {e : StorageError} {s : Store} :
      body.collect = .ok content → a.Recorded (.ofStorage e) s →
      Dispatched p content mime (.error (.ofStorage e))
        [.stored staging.inputKey body mime (.error e)] s
  /-- There is no operation, and the copy is deleted. -/
  | unstarted {staging : Staging} {body : ByteStream} {e : OcrError} {s : Store} :
      body.collect = .ok content → a.Recorded (.ofOcr e) s →
      Dispatched p content mime (.error (.ofOcr e))
        [.stored staging.inputKey body mime (.ok ()),
          .submitted (p.bucket.uri staging.inputKey) mime staging.outputUri (.error e), .followed] s
  /-- The job is left to its operation. -/
  | polled {staging : Staging} {body : ByteStream} {handle : String} {s : Store} :
      body.collect = .ok content →
      p.settings.polling.discipline .documentExtract = .external → a.Waiting handle staging s →
      Dispatched p content mime (.ok (.polling a.jobId))
        [.stored staging.inputKey body mime (.ok ()),
          .submitted (p.bucket.uri staging.inputKey) mime staging.outputUri (.ok handle)] s
  /-- The operation is waited for. -/
  | waited {staging : Staging} {body : ByteStream} {handle : String} {report : JobReport}
      {rest : List Use} {s : Store} : body.collect = .ok content →
      p.settings.polling.discipline .documentExtract = .inProcess →
      (∀ use ∈ rest, use = .followed) → report.isSettled = true →
      a.Reported handle staging s report →
      Dispatched p content mime (.ok (.ofReport report))
        (.stored staging.inputKey body mime (.ok ()) ::
          .submitted (p.bucket.uri staging.inputKey) mime staging.outputUri (.ok handle) :: rest) s

/-- The upload is recognized at once. -/
inductive Recognized (content : ByteArray) (mime : String) :
    Except PipelineError Ingestion → List Use → Store → Prop
  | read {text : String} {s : Store} : a.Drafted .ocr [Text.trim text] s →
      Recognized content mime (.ok (.completed a.jobId true))
        [.recognized content mime (.ok text)] s
  | unread {e : OcrError} {s : Store} : a.Recorded (.ofOcr e) s →
      Recognized content mime (.error (.ofOcr e)) [.recognized content mime (.error e)] s

end Attempt

/-- Something was recognized, or an operation was started. -/
def Use.isGranted : Use → Bool
  | .submitted _ _ _ (.ok _) | .recognized _ _ (.ok _) => true
  | _ => false

/-- Which way an upload has taken, what has been used on it, and what has become of it. -/
structure Pipeline.Routed (p : Pipeline) (a : Attempt) (t : FileType) (content : ByteArray)
    (reading : ByteArray → Except ProcessError (List String)) (mime : String)
    (o : Except PipelineError Ingestion) (uses : List Use) (s : Store) : Prop where
  unused_iff : uses = [] ↔ ∃ texts, p.TakesText t content reading texts
  kept : ∀ texts, p.TakesText t content reading texts → a.Kept texts o s
  dispatched : (∀ texts, ¬ p.TakesText t content reading texts) →
    (t = .pdf ∨ t = .tiff ∨ p.settings.syncSizeLimit < content.size) →
      a.Dispatched p content mime o uses s
  recognized : (∀ texts, ¬ p.TakesText t content reading texts) →
    ¬ (t = .pdf ∨ t = .tiff ∨ p.settings.syncSizeLimit < content.size) →
      a.Recognized content mime o uses s
  /-- Text that does not suffice makes no draft. -/
  granted : (∀ texts, ¬ p.TakesText t content reading texts) →
    (∃ r ∈ s.documents, r.id = a.documentId ∧ r.status = .draft) →
      ∃ use ∈ uses, use.isGranted = true

/-! ### The ways -/

section Ways
variable {p : Pipeline} {a : Attempt} {t : FileType} {content : ByteArray}
  {reading : ByteArray → Except ProcessError (List String)} {mime : String}
  {o : Except PipelineError Ingestion} {uses : List Use} {s : Store}

/-- An attempt that has failed has left no draft. -/
theorem Attempt.Recorded.no_draft {e : PipelineError} (h : a.Recorded e s) :
    ¬ ∃ r ∈ s.documents, r.id = a.documentId ∧ r.status = .draft := by
  rintro ⟨r, hr, hid, hdraft⟩
  obtain ⟨b, hb, hupload, hfailed⟩ := h.failed.document
  obtain rfl := h.failed.sound.document_unique hr hb (hid.trans hupload.id.symm)
  exact absurd (hdraft.symm.trans hfailed) (by decide)

theorem Pipeline.Routed.of_kept {texts : List String}
    (htexts : p.TakesText t content reading texts) (h : a.Kept texts o s) :
    p.Routed a t content reading mime o [] s where
  unused_iff := ⟨fun _ => ⟨texts, htexts⟩, fun _ => rfl⟩
  kept _ htexts' := Except.ok.inj (htexts.read.symm.trans htexts'.read) ▸ h
  dispatched hnone := absurd htexts (hnone texts)
  recognized hnone := absurd htexts (hnone texts)
  granted hnone := absurd htexts (hnone texts)

theorem Attempt.Dispatched.granted (h : a.Dispatched p content mime o uses s)
    (hdraft : ∃ r ∈ s.documents, r.id = a.documentId ∧ r.status = .draft) :
    ∃ use ∈ uses, use.isGranted = true := by
  cases h with
  | unstored _ hrecorded => exact absurd hdraft hrecorded.no_draft
  | unstarted _ hrecorded => exact absurd hdraft hrecorded.no_draft
  | polled => exact ⟨_, List.mem_cons_of_mem _ List.mem_cons_self, rfl⟩
  | waited => exact ⟨_, List.mem_cons_of_mem _ List.mem_cons_self, rfl⟩

theorem Attempt.Dispatched.uses_ne_nil (h : a.Dispatched p content mime o uses s) : uses ≠ [] := by
  cases h <;> exact List.cons_ne_nil _ _

theorem Attempt.Recognized.granted (h : a.Recognized content mime o uses s)
    (hdraft : ∃ r ∈ s.documents, r.id = a.documentId ∧ r.status = .draft) :
    ∃ use ∈ uses, use.isGranted = true := by
  cases h with
  | read => exact ⟨_, List.mem_cons_self, rfl⟩
  | unread hrecorded => exact absurd hdraft hrecorded.no_draft

theorem Attempt.Recognized.uses_ne_nil (h : a.Recognized content mime o uses s) : uses ≠ [] := by
  cases h <;> exact List.cons_ne_nil _ _

theorem Pipeline.Routed.of_dispatched (hnone : ∀ texts, ¬ p.TakesText t content reading texts)
    (hlarge : t = .pdf ∨ t = .tiff ∨ p.settings.syncSizeLimit < content.size)
    (h : a.Dispatched p content mime o uses s) : p.Routed a t content reading mime o uses s where
  unused_iff := ⟨fun hnil => absurd hnil h.uses_ne_nil, fun ⟨texts, htexts⟩ =>
    absurd htexts (hnone texts)⟩
  kept texts htexts := absurd htexts (hnone texts)
  dispatched _ _ := h
  recognized _ hsmall := absurd hlarge hsmall
  granted _ := h.granted

theorem Pipeline.Routed.of_recognized (hnone : ∀ texts, ¬ p.TakesText t content reading texts)
    (hsmall : ¬ (t = .pdf ∨ t = .tiff ∨ p.settings.syncSizeLimit < content.size))
    (h : a.Recognized content mime o uses s) : p.Routed a t content reading mime o uses s where
  unused_iff := ⟨fun hnil => absurd hnil h.uses_ne_nil, fun ⟨texts, htexts⟩ =>
    absurd htexts (hnone texts)⟩
  kept texts htexts := absurd htexts (hnone texts)
  dispatched _ hlarge := absurd hlarge hsmall
  recognized _ _ := h
  granted _ := h.granted

end Ways

/-! ### Pages from texts -/

/-- Pages that were stored for some texts are read so. -/
theorem Store.Files.holdsTexts {s : Store} {d : String} {source : PageSource} {texts : List String}
    (hlength : texts.length < UInt32.size) (h : s.Files d (NewPage.ofTexts source texts)) :
    s.HoldsTexts d source texts := by
  have hturn := NewPage.ofTexts_inTurn source texts
  have hpages : (NewPage.ofTexts source texts).length < UInt32.size :=
    NewPage.ofTexts_length source texts ▸ hlength
  obtain ⟨listed, hrun, hshown⟩ := Pages.list_files h (hturn.ascending hpages)
  refine ⟨listed, hrun, ?_⟩
  unfold NewPage.ofTexts at hshown
  rw [List.forall₂_map_right_iff] at hshown
  have hbounded : ∀ x ∈ texts.zipIdx, x.2 < texts.length := fun x hx => by
    simpa using (List.mem_zipIdx hx).2.1
  refine ((List.forall₂_and_left _ _).mpr ⟨hbounded, hshown.flip⟩).flip.imp fun page x hx => ?_
  obtain ⟨hlt, hshows⟩ := hx
  refine ⟨?_, hshows.rawText, hshows.source⟩
  rw [hshows.pageNo]
  exact UInt32.toNat_ofNat_of_lt' (Nat.lt_of_le_of_lt hlt hlength)

/-! ### Taking the ways -/

/-- An outcome is as `V` says, once a failure is recorded. -/
abbrev Attempt.Ends (a : Attempt) (gives : {β : Type} → Effect β → β → Prop)
    (P : Moment (List Use) → Prop)
    (V : Except PipelineError Ingestion → List Use → Store → Prop)
    (r : Run PipelineError Ingestion) : Prop :=
  r.Amid (Use.alone gives) P (fun answer m => V (.ok answer) m.2 m.1)
    fun e m => a.Extracting m.1 ∧ ∀ s, a.Recorded e s → V (.error e) m.2 s

namespace Pipeline
variable {p : Pipeline} {a : Attempt} {t : FileType} {content : ByteArray}
  {reading : ByteArray → Except ProcessError (List String)} {document : Document}
  {r : Upload.Reference} (hsize : r.size = content.size)

theorem ignores_clock : (Use.noting (Upload.Offers content reading)).Ignores .clock :=
  Use.ignores fun _ => rfl

section
include hsize

/-- The text of the file itself is taken if there is enough of it. -/
theorem ownText_offered (hsmall : content.size ≤ p.settings.nativeSizeLimit) :
    (p.ownText a.jobId r).Amid (Use.alone (Upload.Offers content reading)) (a.Here [])
      (fun found m => (∀ texts, found = some texts ↔ reading content = .ok texts ∧
        NativeText.isUsable texts p.settings.nativeTextThreshold = true) ∧ a.Here [] m)
      fun _ _ => False := by
  have hignores : (Use.noting (Upload.Offers content reading)).Ignores .clock := ignores_clock
  have hnote (kind : EventKind) (step : Option String) (message : String) (trace : Option String) :=
    Ledger.addEvent_here hignores (a := a) (x := []) (E := fun _ _ => False) kind step message trace
  refine (readUpload_offered hsize hsmall).bind fun c => .given fun hc => ?_
  subst hc
  refine (Use.ask_here (e := .extract c) rfl).bind fun o => .given fun ho => ?_
  obtain rfl : o = reading c := ho
  cases hread : reading c with
  | error e =>
    exact (hnote _ _ _ _).widen.bind fun _ => .pure fun _ hm => ⟨by simp, hm⟩
  | ok texts =>
    dsimp only
    split
    case isTrue husable =>
      refine .pure fun _ hm => ⟨fun texts' => ?_, hm⟩
      constructor
      · rintro ⟨⟩
        exact ⟨rfl, husable⟩
      · rintro ⟨⟨⟩, -⟩
        rfl
    case isFalse hunusable =>
      refine (hnote _ _ _ _).widen.bind fun _ => .pure fun _ hm => ⟨fun texts' => ?_, hm⟩
      constructor
      · nofun
      · rintro ⟨⟨⟩, husable⟩
        exact absurd husable hunusable

end

/-! #### In the background -/

/-- What is noted goes on behind what has been sent. -/
theorem retains_followed {gives : {β : Type} → Effect β → β → Prop} (sent : List Use) :
    (Use.noting gives).Retains fun uses =>
      ∃ rest, uses = sent ++ rest ∧ ∀ use ∈ rest, use = .followed := by
  rintro β e uses b uses' he ⟨rest, rfl, hrest⟩ ⟨-, rfl⟩
  exact ⟨rest ++ Use.of e b, List.append_assoc _ _ _, List.forall_mem_append.mpr
    ⟨hrest, fun _ huse => Use.eq_followed_of he huse⟩⟩

/-- An operation is started on the copy, or the copy is deleted. -/
theorem submit_offered {s : Staging} (huri : s.inputUri = p.bucket.uri s.inputKey)
    {body : ByteStream} (hbody : body.collect = .ok content) :
    (submit s).Amid (Use.alone (Upload.Offers content reading))
      (a.Here [.stored s.inputKey body s.mime (.ok ())])
      (fun handle => a.Here [.stored s.inputKey body s.mime (.ok ()),
        .submitted (p.bucket.uri s.inputKey) s.mime s.outputUri (.ok handle)])
      fun e m => a.Extracting m.1 ∧ ∀ s', a.Recorded e s' →
        a.Dispatched p content s.mime (.error e) m.2 s' := by
  unfold submit
  rw [huri]
  refine (Use.ask_here (e := .submit _ s.mime s.outputUri) rfl).bind fun o => .given fun _ => ?_
  cases o with
  | ok handle => exact .pure fun _ hm => hm
  | error e =>
    refine (Use.ask_here (e := .delete s.inputKey) rfl).bind fun _ => .throw fun m hm => ?_
    obtain ⟨-, hextracting, huses⟩ := hm
    refine ⟨hextracting, fun s' hs' => ?_⟩
    rw [huses]
    exact .unstarted hbody hs'

theorem dispatch_offered (mime : String) :
    a.Ends (Upload.Offers content reading) (a.Here []) (a.Dispatched p content mime)
      (p.dispatch document a.jobId r mime) := by
  refine (Run.Amid.clock_alone ignores_clock).bind fun now => ?_
  dsimp only
  obtain ⟨staging, hplan, huri, rfl⟩ : ∃ staging, Staging.plan p.bucket document.ownerId document.id
      now (copyExtension document) mime = staging ∧ staging.inputUri = p.bucket.uri staging.inputKey ∧
        staging.mime = mime := ⟨_, rfl, rfl, rfl⟩
  rw [hplan]
  refine (Ledger.updateProgress_here ignores_clock 0 1 "staging").widen.bind fun _ => ?_
  refine ((Use.demand_here (e := .openUpload r) rfl).conseq (fun _ h => h) (fun _ _ h => h)
    fun _ _ h => ?_).bind fun body => .given fun hbody => ?_
  · obtain ⟨_, -, ⟨_, hnone, -⟩, -⟩ := h
    cases hnone
  obtain ⟨_, hstream, hbody⟩ := hbody
  obtain rfl := Except.ok.inj hstream
  refine ((Use.demand_here (e := .put staging.inputKey body staging.mime) rfl).conseq (fun _ h => h)
    (fun _ _ h => h.2) fun _ m h => ?_).bind fun _ => ?_
  · obtain ⟨e, rfl, -, hextracting, huses⟩ := h
    refine ⟨hextracting, fun s hs => ?_⟩
    rw [huses]
    exact .unstored hbody hs
  refine (submit_offered huri hbody).bind fun handle => ?_
  refine (p.ledger.markPolling_here ignores_clock handle staging).widen.bind fun _ => ?_
  refine (Ledger.addEvent_left ignores_clock _ _ _ _).widen.bind fun _ => ?_
  split
  case h_1 hdiscipline =>
    refine .pure fun m hm => ?_
    rw [hm.2]
    exact .polled hbody hdiscipline hm.1
  case h_2 hdiscipline =>
    refine ((p.wait_waiting (retains_followed _) hdiscipline).pre fun m hm =>
      ⟨hm.1, [], hm.2.trans (List.append_nil _).symm, nofun⟩).bind fun report => .pure fun m hm => ?_
    obtain ⟨hsettled, hreported, rest, huses, hrest⟩ := hm
    rw [huses]
    exact .waited hbody hdiscipline hrest hsettled hreported

/-! #### At once -/

section
variable (hdocument : document.id = a.documentId)
include hdocument

theorem finish_texts (source : PageSource) (texts : List String) (label : String) {uses : List Use} :
    (finish document a.jobId (NewPage.ofTexts source texts) label).Amid
      (Use.alone (Upload.Offers content reading)) (a.Here uses)
      (fun answer m => answer = .completed a.jobId true ∧ texts.length < UInt32.size ∧
        a.Drafted source texts m.1 ∧ m.2 = uses)
      fun _ m => UInt32.size ≤ texts.length ∧ a.Here uses m := by
  refine (finish_alone ignores_clock hdocument (NewPage.ofTexts_inTurn source texts) label).conseq
    (fun _ hm => hm) (fun answer m hm => ?_) fun e m hm => ?_
  · obtain ⟨hanswer, hlength, hcompleted, hfiles, huses⟩ := hm
    rw [NewPage.ofTexts_length] at hlength hcompleted
    exact ⟨hanswer, hlength, ⟨hcompleted, hfiles.holdsTexts hlength⟩, huses⟩
  · rw [NewPage.ofTexts_length] at hm
    exact ⟨hm.1, hm.2.2⟩

theorem recognizeNow_offered (hsize : r.size = content.size)
    (hsmall : content.size ≤ p.settings.syncSizeLimit) (mime : String) :
    a.Ends (Upload.Offers content reading) (a.Here []) (a.Recognized content mime)
      (p.recognizeNow document a.jobId r mime) := by
  refine (Ledger.updateProgress_here ignores_clock 0 1 "ocr").widen.bind fun _ => ?_
  refine (readUpload_offered hsize hsmall).bind fun c => .given fun hc => ?_
  subst hc
  refine ((Use.demand_here (e := .recognize c mime) rfl).conseq (fun _ h => h) (fun _ _ h => h.2)
    fun _ m h => ?_).bind fun text => ?_
  · obtain ⟨e, rfl, -, hextracting, huses⟩ := h
    refine ⟨hextracting, fun s hs => ?_⟩
    rw [huses]
    exact .unread hs
  refine (finish_texts hdocument .ocr [Text.trim text] "ocr_sync").conseq
    (fun _ hm => hm) (fun answer m hm => ?_) fun _ _ hm => absurd hm.1 (show ¬ UInt32.size ≤ 1 by decide)
  obtain ⟨rfl, -, hdrafted, huses⟩ := hm
  rw [huses]
  exact .read hdrafted

/-! #### The choice -/

theorem recognize_offered (hsize : r.size = content.size)
    (hnone : ∀ texts, ¬ p.TakesText t content reading texts) :
    a.Ends (Upload.Offers content reading) (a.Here [])
      (p.Routed a t content reading (document.mimeType.getD t.defaultMime))
      (p.recognize document a.jobId t r) := by
  have hpaginated : t.isPaginated = true ↔ t = .pdf ∨ t = .tiff := by cases t <;> decide
  unfold recognize
  dsimp only
  split
  case isTrue hlarge =>
    rw [Bool.or_eq_true, hpaginated, decide_eq_true_eq, hsize, or_assoc] at hlarge
    exact (dispatch_offered _).conseq (fun _ hm => hm) (fun _ _ hm => .of_dispatched hnone hlarge hm)
      fun _ _ hm => ⟨hm.1, fun s hs => .of_dispatched hnone hlarge (hm.2 s hs)⟩
  case isFalse hsmall =>
    rw [Bool.or_eq_true, hpaginated, decide_eq_true_eq, hsize, or_assoc] at hsmall
    have hlimit : content.size ≤ p.settings.syncSizeLimit :=
      Nat.le_of_not_lt fun hlt => hsmall (.inr (.inr hlt))
    exact (recognizeNow_offered hdocument hsize hlimit _).conseq (fun _ hm => hm)
      (fun _ _ hm => .of_recognized hnone hsmall hm)
      fun _ _ hm => ⟨hm.1, fun s hs => .of_recognized hnone hsmall (hm.2 s hs)⟩

theorem extract_offered (htype : FileType.ofWord document.fileType = .ok t) :
    a.Ends (Upload.Offers content reading) (a.Here [])
      (p.Routed a t content reading (document.mimeType.getD t.defaultMime))
      (p.extract document a.jobId) := by
  have hpdf : t.supportsNativePagination = true ↔ t = .pdf := by cases t <;> decide
  refine .ofExcept_bind (fun _ _ h => nomatch h.symm.trans htype) fun t' ht' => ?_
  obtain rfl := Except.ok.inj (ht'.symm.trans htype)
  refine ((Use.demand_here (e := .reference document.storagePath p.settings.referenceTtl)
    rfl).conseq (fun _ h => h) (fun _ _ h => h) fun _ _ h => ?_).bind fun r => .given fun hr => ?_
  · obtain ⟨_, -, ⟨_, hnone, -⟩, -⟩ := h
    cases hnone
  obtain ⟨_, hsame, hsize⟩ := hr
  obtain rfl := Except.ok.inj hsame
  split
  case isTrue hown =>
    rw [Bool.and_eq_true, hpdf, decide_eq_true_eq, hsize] at hown
    refine (Ledger.updateProgress_here ignores_clock 0 1 "native_extraction").widen.bind fun _ => ?_
    refine ((ownText_offered hsize hown.2).conseq (fun _ h => h) (fun _ _ h => h)
      fun _ _ h => h.elim).bind fun found => .given fun hfound => ?_
    cases found with
    | some texts =>
      obtain ⟨hread, husable⟩ := (hfound texts).mp rfl
      obtain ⟨hpaged, henough⟩ := NativeText.isUsable_iff.mp husable
      have htexts : p.TakesText t' content reading texts := ⟨hown.1, hown.2, hread, hpaged, henough⟩
      refine (finish_texts hdocument .native texts "native").conseq
        (fun _ hm => hm) (fun answer m hm => ?_) fun e m hm => ⟨hm.2.1, fun s hs => ?_⟩
      · obtain ⟨rfl, hlength, hdrafted, huses⟩ := hm
        rw [huses]
        exact .of_kept htexts (.inl ⟨hlength, rfl, hdrafted⟩)
      · rw [hm.2.2]
        exact .of_kept htexts (.inr ⟨hm.1, e, rfl, hs⟩)
    | none =>
      refine recognize_offered hdocument hsize fun texts htexts => ?_
      have husable := NativeText.isUsable_iff.mpr ⟨htexts.paged, htexts.enough⟩
      exact nomatch (hfound texts).mpr ⟨htexts.read, husable⟩
  case isFalse hother =>
    rw [Bool.and_eq_true, hpdf, decide_eq_true_eq, hsize] at hother
    exact recognize_offered hdocument hsize fun texts htexts => hother ⟨htexts.pdf, htexts.small⟩

/-- A failure is recorded, whatever has been used before it. -/
theorem conclude_ends {gives : {β : Type} → Effect β → β → Prop} {P : Moment (List Use) → Prop}
    {V : Except PipelineError Ingestion → List Use → Store → Prop}
    {r : Run PipelineError Ingestion} (h : a.Ends gives P V r) :
    Run.Amid (Use.alone gives) P (fun answer m => V (.ok answer) m.2 m.1)
      (fun e m => V (.error e) m.2 m.1) (do conclude document a.jobId (← Run.outcome r)) := by
  refine Run.Amid.bind (R := Either (fun answer m => V (.ok answer) m.2 m.1) fun e m =>
    a.Extracting m.1 ∧ ∀ s, a.Recorded e s → V (.error e) m.2 s) (.outcome h) fun o => ?_
  cases o with
  | ok answer => exact .pure fun _ hm => hm
  | error e =>
    refine Run.Amid.pre (P := fun m => ∃ uses, (∀ s, a.Recorded e s → V (.error e) uses s) ∧
      a.Here uses m) ?_ fun m hm => ⟨m.2, hm.2, hm.1, rfl⟩
    refine .of_exists fun uses => .given fun hends => ?_
    refine (conclude_here (Use.ignores fun _ => rfl) hdocument e).conseq (fun _ hm => hm)
      (fun _ _ hm => hm) fun _ m hm => ?_
    obtain ⟨rfl, hrecorded, huses⟩ := hm
    rw [huses]
    exact hends m.1 hrecorded

end

/-- What becomes of an upload whose document is locked: its type tells the way, if it has one. -/
def Treated (p : Pipeline) (a : Attempt) (document : Document) (content : ByteArray)
    (reading : ByteArray → Except ProcessError (List String)) (o : Except PipelineError Ingestion)
    (uses : List Use) (s : Store) : Prop :=
  match FileType.ofWord document.fileType with
  | .ok t => p.Routed a t content reading (document.mimeType.getD t.defaultMime) o uses s
  | .error e => uses = [] ∧ o = .error (.ofProcess e) ∧ a.Recorded (.ofProcess e) s

theorem goOn_offered (hdocument : document.id = a.documentId) :
    (p.goOn document a.jobId).Amid (Use.alone (Upload.Offers content reading)) (a.Here [])
      (fun answer m => p.Treated a document content reading (.ok answer) m.2 m.1)
      fun e m => p.Treated a document content reading (.error e) m.2 m.1 := by
  refine (Ledger.markRunning_here ignores_clock).widen.bind fun _ => conclude_ends hdocument ?_
  unfold Treated
  cases htype : FileType.ofWord document.fileType with
  | ok t => exact extract_offered hdocument htype
  | error e =>
    refine .ofExcept_bind (fun e' m he' hm => ?_) fun t ht => nomatch ht.symm.trans htype
    obtain rfl := Except.error.inj (he'.symm.trans htype)
    exact ⟨hm.1, fun s hs => ⟨hm.2, rfl, hs⟩⟩

end Pipeline

/-! ### The whole -/

/-- Every upload whose document can be locked takes one way, and every ingestion of it comes to an
end. Nothing is used on it exactly if the text that it holds by itself suffices; then each page has
a text of its own. Any other upload that may have more than one page, or is too large to be
recognized at once, is copied as it is, once, and one operation is started on the copy; and what is
left is recognized as it is, once, and is one page. Whatever is said of an upload and read of it, no
more than so many bytes are recognized at once. -/
theorem uploads_take_one_way (p : Pipeline) (documentId ownerId : String) {s : Store}
    (hs : s.Sound) (content : ByteArray) (reading : ByteArray → Except ProcessError (List String)) :
    (∃ o m, (Use.noting (Upload.Offers content reading)).Runs (p.ingest documentId ownerId).run
      (s, []) o m) ∧
    (∀ o m, (Use.noting (Upload.Offers content reading)).Runs (p.ingest documentId ownerId).run
        (s, []) o m →
      (m = (s, []) ∧ ∃ e, o = .error e ∧
        (e.isRefusal = true ∨ ∃ fault, e = .internal (.store fault))) ∨
      ∃ a document, Attempt.IsOf a s documentId ownerId ∧ s.Names documentId document ∧
        p.Treated a document content reading o m.2 m.1) ∧
    ∀ o m, (Use.noting fun _ _ => True).Runs (p.ingest documentId ownerId).run (s, []) o m →
      Use.Small p.settings.syncSizeLimit m.2 := by
  refine ⟨Surroundings.Live.runs (Use.noting_live Upload.exists_offers) _ _, fun o m hruns => ?_, fun o m hruns => ?_⟩
  · have hamid : (p.ingest documentId ownerId).Amid (Use.alone (Upload.Offers content reading))
        (fun m => m = (s, []))
        (fun answer m => ∃ a document, Attempt.IsOf a s documentId ownerId ∧
          s.Names documentId document ∧ p.Treated a document content reading (.ok answer) m.2 m.1)
        fun e m => (m = (s, []) ∧ (e.isRefusal = true ∨ ∃ fault, e = .internal (.store fault))) ∨
          ∃ a document, Attempt.IsOf a s documentId ownerId ∧ s.Names documentId document ∧
            p.Treated a document content reading (.error e) m.2 m.1 :=
      p.ingest_here hs Pipeline.ignores_clock (Use.ignores fun _ => rfl) []
        (fun _ he => .inl ⟨rfl, he⟩) fun a document hof hnames hdocument =>
          (Pipeline.goOn_offered hdocument).conseq (fun _ h => h)
            (fun _ _ h => ⟨a, document, hof, hnames, h⟩)
            fun _ _ h => .inr ⟨a, document, hof, hnames, h⟩
    have hends := Company.ends_of_runs (c := Use.alone (Upload.Offers content reading))
      (fun _ => rfl) (Run.Amid.iff_leads.mp hamid _ rfl) hruns
    cases o with
    | ok answer => exact .inr hends
    | error e => exact hends.imp_left fun h => ⟨h.1, e, rfl, h.2⟩
  · have hends := Company.ends_of_runs (c := Use.alone fun _ _ => True) (fun _ => rfl)
      (Run.Amid.iff_leads.mp (p.uses_small documentId ownerId _) _
        fun _ _ _ h => absurd h List.not_mem_nil) hruns
    cases o with
    | ok answer => exact hends
    | error e => exact hends

namespace Printed

/-! A file of one page that holds one letter. -/

/-- A pipeline for which one letter is enough. -/
def pipeline : Pipeline :=
  { Background.pipeline with settings := { Settings.standard with nativeTextThreshold := 1 } }

def document : Document :=
  { lockedUpload with fileName := "a.pdf" }.toDocument .pdf "d" Background.start.timestamp

def registered : Store := ((Documents.insert document).run Store.empty).2

theorem registered_sound : registered.Sound := (Documents.insertAs_sound _ _).run .empty

def locked : Store :=
  ((Pipeline.lockDocument "d" "o" "j" Background.start pipeline.ledger.heartbeat).run registered).2

def running : Store := ((Ledger.running "j" Background.start).run locked).2

def progressed : Store :=
  ((Ledger.progressed "j" 0 1 "native_extraction" Background.start).run running).2

/-- The letter is stored, and the document is a draft. -/
def draft : Store :=
  ((Pipeline.finishWith document "j" (Pipeline.ownPages ["a"]) "native"
    Background.start.timestamp).run progressed).2

theorem ingest_runs : (Use.noting (Upload.Offers .empty fun _ => .ok ["a"])).Runs
    (pipeline.ingest "d" "o").run (registered, []) (.ok (.completed "j" true)) (draft, []) :=
  ⟨"j", (registered, []), ⟨rfl, trivial, rfl⟩,
    Background.start, (registered, []), ⟨rfl, trivial, rfl⟩,
    _, (locked, []), ⟨rfl, rfl⟩,
    Background.start, (locked, []), ⟨rfl, trivial, rfl⟩,
    _, (running, []), ⟨rfl, rfl⟩,
    .ok ⟨"u", 0, Background.start⟩, (running, []), ⟨rfl, ⟨_, rfl, rfl⟩, rfl⟩,
    Background.start, (running, []), ⟨rfl, trivial, rfl⟩,
    _, (progressed, []), ⟨rfl, rfl⟩,
    .ok [], (progressed, []), ⟨rfl, ⟨_, rfl, rfl⟩, rfl⟩,
    .ok ["a"], (progressed, []), ⟨rfl, rfl, rfl⟩,
    Background.start, (progressed, []), ⟨rfl, trivial, rfl⟩,
    _, (draft, []), ⟨rfl, rfl⟩, rfl, rfl⟩

end Printed

/-- One letter is enough, and nothing is used. -/
theorem uploads_take_one_way_printed :
    Printed.registered.Sound ∧
    (Use.noting (Upload.Offers .empty fun _ => .ok ["a"])).Runs
      (Printed.pipeline.ingest "d" "o").run (Printed.registered, []) (.ok (.completed "j" true))
      (Printed.draft, []) ∧
    Printed.draft.HoldsTexts "d" .native ["a"] := by
  refine ⟨Printed.registered_sound, Printed.ingest_runs, ?_⟩
  obtain ⟨-, hways, -⟩ := uploads_take_one_way Printed.pipeline "d" "o" Printed.registered_sound
    .empty fun _ => .ok ["a"]
  rcases hways _ _ Printed.ingest_runs with ⟨-, e, he, -⟩ | ⟨a, document, hof, ⟨r, hr, -, hread⟩, htreated⟩
  · cases he
  obtain rfl := List.mem_singleton.mp hr
  obtain rfl := Except.ok.inj hread
  obtain ⟨texts, htexts⟩ := htreated.unused_iff.mp rfl
  obtain rfl := Except.ok.inj htexts.read
  rcases htreated.kept _ htexts with ⟨-, -, hdrafted⟩ | ⟨hlong, -⟩
  · exact hof.documentId ▸ hdrafted.holds
  · exact absurd hlong (by decide)

end Quire
