import Quire.Proofs.Flow.Company
import Quire.Proofs.Pipeline.Conduct
import Quire.Proofs.Pipeline.Quiet
import Quire.Proofs.Text.Cut

/-! Whose temporary objects are whose.

The keys of a dispatch are put together from the owner, the document, the moment and the extension,
and nothing keeps slashes out of an owner's id. Cut at the slashes, the keys of two documents differ
where the ids of the documents stand, and no id of a document is a moment. So the objects of two
dispatches can only meet if the id of one owner goes through the whole path of the other dispatch
(`Dispatch.Under`), and then they do. -/
namespace Quire
open Text (cutChars startsWith)

/-! ### The parts of a key -/

/-- The form of the ids that documents are given: five groups of hexadecimal digits, with hyphens
between them. -/
def isUuid (id : String) : Bool :=
  (cutChars '-' id.toList).map List.length == [8, 4, 4, 4, 12] &&
    id.toList.all fun c => c == '-' || "0123456789abcdef".toList.contains c

theorem slash_not_mem_uuid {id : String} (h : isUuid id = true) : '/' ∉ id.toList := by
  intro hmem
  have hall := List.all_eq_true.mp (Bool.and_eq_true_iff.mp h).2 '/' hmem
  revert hall
  decide

theorem slash_not_mem_int (n : Int) : '/' ∉ (toString n).toList := by
  obtain ⟨ds, hds, h | h⟩ := Text.toList_toString_int n <;> rw [h]
  · exact fun hmem => absurd (hds _ hmem) (by decide)
  · rw [List.mem_cons, not_or]
    exact ⟨by decide, fun hmem => absurd (hds _ hmem) (by decide)⟩

/-- No id of a document is a number: it has more hyphens. -/
theorem uuid_ne_int {id : String} (h : isUuid id = true) (n : Int) : id ≠ toString n := by
  rintro rfl
  have hgroups := congrArg List.length (beq_iff_eq.mp (Bool.and_eq_true_iff.mp h).1)
  rw [List.length_map] at hgroups
  have hhyphen {ds : List Char} (hds : ∀ c ∈ ds, c.isDigit = true) : '-' ∉ ds :=
    fun hmem => absurd (hds _ hmem) (by decide)
  obtain ⟨ds, hds, hn | hn⟩ := Text.toList_toString_int n
  · rw [hn, Text.cutChars_of_not_mem (hhyphen hds)] at hgroups
    cases hgroups
  · rw [hn, ← List.nil_append ('-' :: ds), Text.cutChars_concat [] (hhyphen hds)] at hgroups
    cases hgroups

/-- Where the pieces are the same, the last ones are. -/
theorem pieces_concat_inj {xs ys : List (List Char)} {s t : String}
    (h : xs ++ [s.toList] = ys ++ [t.toList]) : xs = ys ∧ s = t := by
  obtain ⟨hfront, hlast⟩ := List.append_inj' h rfl
  exact ⟨hfront, String.toList_inj.mp (List.singleton_inj.mp hlast)⟩

namespace Path

theorem inner_normal {part name : String} (h : inner part = some (.normal name)) : part = name := by
  unfold inner at h
  split at h
  · cases h
  · split at h
    · cases h
    · cases h
      rfl

/-- A name in a path is one of the pieces between its slashes. -/
theorem mem_cut_of_components {path name : String} (h : .normal name ∈ components path) :
    name ∈ Text.cut '/' path := by
  have hinner {parts : List String} (hname : .normal name ∈ parts.filterMap inner) :
      name ∈ parts := by
    obtain ⟨part, hpart, hnormal⟩ := List.mem_filterMap.mp hname
    exact inner_normal hnormal ▸ hpart
  unfold components at h
  generalize Text.cut '/' path = parts at h ⊢
  cases parts with
  | nil => cases h
  | cons first rest =>
    dsimp only at h
    split at h
    · split at h
      · cases h
      · exact List.mem_cons_of_mem _ (hinner ((List.mem_cons.mp h).resolve_left nofun))
    · split at h
      · exact List.mem_cons_of_mem _ (hinner ((List.mem_cons.mp h).resolve_left nofun))
      · rcases List.mem_append.mp h with hfirst | hrest
        · exact inner_normal (Option.mem_toList.mp hfirst) ▸ List.mem_cons_self
        · exact List.mem_cons_of_mem _ (hinner hrest)

theorem slash_not_mem_fileName {path name : String} (h : fileName? path = some name) :
    '/' ∉ name.toList := by
  unfold fileName? at h
  split at h
  case h_1 last hlast =>
    cases h
    obtain ⟨piece, hpiece, rfl⟩ :=
      List.mem_map.mp (mem_cut_of_components (List.mem_of_getLast? hlast))
    rw [String.toList_ofList]
    exact (Text.mem_cutChars hpiece).1
  case h_2 => cases h

theorem slash_not_mem_extension {path e : String} (h : extension? path = some e) :
    '/' ∉ e.toList := by
  obtain ⟨name, hname, h⟩ := Option.bind_eq_some_iff.mp h
  split at h
  case h_1 last before more hpieces =>
    split at h
    · cases h
    · cases h
      rw [String.toList_ofList]
      have hlast : last ∈ cutChars '.' name.toList :=
        List.mem_reverse.mp (hpieces ▸ List.mem_cons_self)
      exact fun hmem => slash_not_mem_fileName hname ((Text.mem_cutChars hlast).2 hmem)
  case h_2 => cases h

end Path

theorem FileType.slash_not_mem_word {word : String} {t : FileType} (h : ofWord word = .ok t) :
    '/' ∉ word.toList := by
  unfold ofWord at h
  split at h
  case h_1 t' ht' =>
    have hword : Label.word t' = word := by simpa using List.find?_some ht'
    rw [← hword]
    cases t' <;> decide
  case h_2 => cases h

theorem Pipeline.slash_not_mem_copyExtension {document : Document} {t : FileType}
    (h : FileType.ofWord document.fileType = .ok t) : '/' ∉ (copyExtension document).toList := by
  unfold copyExtension
  cases he : Path.extension? document.fileName with
  | none => exact FileType.slash_not_mem_word h
  | some e =>
    change '/' ∉ (Text.asciiLower e).toList
    unfold Text.asciiLower
    rw [String.toList_ofList, List.mem_map]
    rintro ⟨c, hc, hlower⟩
    exact Path.slash_not_mem_extension he (Text.toLower_eq_slash hlower ▸ hc)

/-! ### The objects of a dispatch -/

/-- A dispatch of a document: what its objects are named by. -/
structure Dispatch where
  document : Document
  bucket : Bucket
  now : Instant
  mime : String
  fileType : FileType
  identified : isUuid document.id = true
  typed : FileType.ofWord document.fileType = .ok fileType

namespace Dispatch

def staging (d : Dispatch) : Staging :=
  .plan d.bucket d.document.ownerId d.document.id d.now (Pipeline.copyExtension d.document) d.mime

/-- The moment in milliseconds. -/
def stamp (d : Dispatch) : String := toString d.now.millis

/-- The owner, the document and the moment. -/
def path (d : Dispatch) : String := s!"{d.document.ownerId}/{d.document.id}/{d.stamp}"

/-- The copy of the upload, and whatever is in the folder for the results. -/
def Owns (d : Dispatch) (key : String) : Prop :=
  key = d.staging.inputKey ∨ startsWith d.staging.outputFolder key = true

/-- Nothing is an object of both. -/
def Apart (a b : Dispatch) : Prop := ∀ key, a.Owns key → ¬ b.Owns key

/-- The owner's id is the path of the other dispatch, or goes on from there after a slash. -/
def Under (a b : Dispatch) : Prop := startsWith (b.path ++ "/") (a.document.ownerId ++ "/") = true

instance (a b : Dispatch) : Decidable (a.Under b) := inferInstanceAs (Decidable (_ = true))

variable {a b : Dispatch}

theorem path_eq (d : Dispatch) :
    d.path = d.document.ownerId ++ "/" ++ d.document.id ++ "/" ++ d.stamp := rfl

theorem inputKey_eq (d : Dispatch) : d.staging.inputKey =
    "inputs/" ++ d.document.ownerId ++ "/" ++ d.document.id ++ "/" ++ d.stamp ++ "." ++
      Pipeline.copyExtension d.document := rfl

theorem outputFolder_eq (d : Dispatch) : d.staging.outputFolder =
    "outputs/" ++ d.document.ownerId ++ "/" ++ d.document.id ++ "/" ++ d.stamp ++ "/" := rfl

theorem toList_outputFolder (d : Dispatch) :
    d.staging.outputFolder.toList = "outputs/".toList ++ (d.path.toList ++ ['/']) := by
  simp [outputFolder_eq, path_eq]

theorem slash_not_mem_stamp (d : Dispatch) : '/' ∉ d.stamp.toList := slash_not_mem_int d.now.millis

/-- The pieces of a path: those of the owner's id, the document and the moment. -/
theorem cut_path (d : Dispatch) : cutChars '/' d.path.toList =
    cutChars '/' d.document.ownerId.toList ++ [d.document.id.toList] ++ [d.stamp.toList] := by
  rw [← Text.cutChars_concat _ (slash_not_mem_uuid d.identified),
    ← Text.cutChars_concat _ d.slash_not_mem_stamp]
  simp [path_eq]

/-- The pieces of the key of a copy. -/
theorem cut_inputKey (d : Dispatch) : ∃ file, cutChars '/' d.staging.inputKey.toList =
    cutChars '/' ("inputs/".toList ++ d.document.ownerId.toList) ++ [d.document.id.toList] ++
      [file] := by
  have hfile : '/' ∉ d.stamp.toList ++ '.' :: (Pipeline.copyExtension d.document).toList := by
    simp [d.slash_not_mem_stamp, Pipeline.slash_not_mem_copyExtension d.typed]
  refine ⟨d.stamp.toList ++ '.' :: (Pipeline.copyExtension d.document).toList, ?_⟩
  rw [← Text.cutChars_concat _ (slash_not_mem_uuid d.identified), ← Text.cutChars_concat _ hfile]
  simp [inputKey_eq]

/-- No copy is in a folder for results. -/
theorem inputKey_not_output (a b : Dispatch) :
    startsWith b.staging.outputFolder a.staging.inputKey = false := by
  rw [Bool.eq_false_iff, Ne, Text.startsWith_iff, toList_outputFolder]
  rintro ⟨rest, h⟩
  simp [inputKey_eq] at h

theorem inputKey_ne (hid : a.document.id ≠ b.document.id) :
    a.staging.inputKey ≠ b.staging.inputKey := by
  intro h
  obtain ⟨file, hfile⟩ := a.cut_inputKey
  obtain ⟨file', hfile'⟩ := b.cut_inputKey
  rw [h, hfile'] at hfile
  have hfront := (List.append_inj' hfile rfl).1
  exact hid (pieces_concat_inj hfront).2.symm

theorem under_iff : a.Under b ↔
    cutChars '/' b.path.toList <+: cutChars '/' a.document.ownerId.toList := by
  unfold Under
  rw [Text.startsWith_iff, Text.cutChars_prefix, String.toList_append, String.toList_append]
  rfl

/-- An owner's id without a slash goes through no path. -/
theorem not_under_of_slash_not_mem (h : '/' ∉ a.document.ownerId.toList) : ¬ a.Under b := by
  rw [under_iff, b.cut_path, Text.cutChars_of_not_mem h]
  intro hprefix
  have hlength := hprefix.length_le
  simp at hlength

/-- One folder is in the other exactly if its owner's id goes through the other's path: the id of a
document meets another one, or a moment, if the cut falls anywhere else. -/
theorem outputFolder_in_iff (hid : a.document.id ≠ b.document.id) :
    startsWith b.staging.outputFolder a.staging.outputFolder = true ↔ a.Under b := by
  rw [under_iff, Text.startsWith_iff, toList_outputFolder, toList_outputFolder,
    List.prefix_append_right_inj, ← Text.cutChars_prefix, a.cut_path, b.cut_path,
    List.prefix_concat_iff, List.prefix_concat_iff]
  constructor
  · rintro (hsame | hmoment | hunder)
    · have hfront := (pieces_concat_inj hsame).1
      exact absurd (pieces_concat_inj hfront).2.symm hid
    · have hstamp := (pieces_concat_inj hmoment).2
      exact absurd hstamp.symm (uuid_ne_int a.identified b.now.millis)
    · exact hunder
  · exact fun hunder => .inr (.inr hunder)

/-- Two dispatches are apart unless one folder for results is in the other. -/
theorem apart_iff_outputs (hid : a.document.id ≠ b.document.id) : a.Apart b ↔
    ¬ startsWith b.staging.outputFolder a.staging.outputFolder = true ∧
      ¬ startsWith a.staging.outputFolder b.staging.outputFolder = true := by
  constructor
  · intro h
    refine ⟨fun hin => ?_, fun hin => ?_⟩
    · exact h _ (.inr (Text.startsWith_iff.mpr (List.prefix_refl _))) (.inr hin)
    · exact h _ (.inr hin) (.inr (Text.startsWith_iff.mpr (List.prefix_refl _)))
  · rintro ⟨hab, hba⟩ key (rfl | hkey) (hkey' | hkey')
    · exact inputKey_ne hid hkey'
    · exact Bool.false_ne_true ((inputKey_not_output a b).symm.trans hkey')
    · exact Bool.false_ne_true ((inputKey_not_output b a).symm.trans (hkey' ▸ hkey))
    · rw [Text.startsWith_iff] at hab hba hkey hkey'
      exact (List.prefix_or_prefix_of_prefix hkey hkey').elim hba hab

theorem apart_iff (hid : a.document.id ≠ b.document.id) :
    a.Apart b ↔ ¬ a.Under b ∧ ¬ b.Under a := by
  rw [apart_iff_outputs hid, outputFolder_in_iff hid, outputFolder_in_iff hid.symm]

end Dispatch

/-! ### Checking on the job of a dispatch -/

/-- A question that is not about the objects of a dispatch. -/
def Effect.Spares (d : Dispatch) {β : Type} : Effect β → Prop
  | .list start => ∀ key, startsWith start key = true → ¬ d.Owns key
  | .put key _ _ | .get key | .delete key => ¬ d.Owns key
  | _ => True

/-- Keys that are listed begin as asked for. -/
def Effect.Lists {β : Type} : Effect β → β → Prop
  | .list start, .ok keys => ∀ key ∈ keys, startsWith start key = true
  | _, _ => True

theorem ObjectStore.lists (o : ObjectStore) (start : String) :
    (Effect.list start).Lists (.ok (o.list start)) :=
  fun _ hkey => (List.mem_filter.mp hkey).2

/-- The objects of a dispatch are left alone by whoever is told of keys that begin as asked for. -/
def Dialogue.sparing (d : Dispatch) : Dialogue := ⟨fun _ _ _ => True, Effect.Spares d, Effect.Lists⟩

/-- The jobs of an id have recorded where the files of an operation are. -/
def Store.Records (jobId : String) (staging : Staging) (s : Store) : Prop :=
  ∀ r ∈ s.jobs, r.id = jobId → r.params = .ofJson staging.toJson

namespace Pipeline
variable {a b : Dispatch} {I : Store → Prop}

/-- What is found for the job has recorded the same. -/
theorem find_recorded (staging : Staging) (jobId : String) : (Ledger.find jobId).Abides
    ((Dialogue.sparing b).among (Store.Records jobId staging)) fun job => stagingOf job = .ok staging := by
  refine Ledger.find_abides trivial fun s hs r hr hid job hshows => ?_
  have hparams := hshows.params
  rw [hs r hr hid, (stored_staging staging).1] at hparams
  unfold stagingOf
  rw [← Except.ok.inj hparams, (stored_staging staging).2]

variable (h : a.Apart b)
include h

/-- A job of one of two dispatches that are apart can be checked on without the objects of the
other. -/
theorem checked_sparing {job : Job} (hjob : stagingOf job = .ok a.staging) :
    Checked ((Dialogue.sparing b).among I) job where
  watches := ⟨⟨trivial, fun _ _ _ => trivial, fun _ _ => trivial⟩, fun _ => trivial, fun _ => trivial⟩
  checks := .of_harmless (fun _ => trivial) (fun _ _ _ => trivial) fun _ _ _ _ _ => trivial
  handles staging hstaging := by
    obtain rfl := Except.ok.inj (hjob.symm.trans hstaging)
    have hout {key : String} (hkey : startsWith a.staging.outputFolder key = true) : ¬ b.Owns key :=
      h key (.inr hkey)
    refine ⟨fun key => hout, h _ (.inl rfl), fun keys hkeys key hkey => ?_⟩
    have hstart := hkeys.2 key hkey
    exact ⟨hout hstart, hout hstart⟩

variable (p : Pipeline) (jobId : String)

theorem poll_spares : (p.poll jobId).Abides
    ((Dialogue.sparing b).among (Store.Records jobId a.staging)) fun _ => True :=
  p.poll_abides (find_recorded a.staging jobId) fun _ => checked_sparing h

theorem wait_spares : (p.wait jobId).Abides
    ((Dialogue.sparing b).among (Store.Records jobId a.staging)) fun _ => True :=
  p.wait_abides (find_recorded a.staging jobId) fun _ => checked_sparing h

end Pipeline

namespace Dispatch
variable {a b : Dispatch}

/-- Objects of different documents. Of two dispatches of two documents, an object of one is an
object of the other exactly if one owner's id is the whole path of the other dispatch, or goes on
from there after a slash; so never where owners' ids have no slash. Otherwise whoever checks on the
job that one has left neither lists nor reads nor deletes objects of the other, whatever becomes of
the store meanwhile, as long as the job holds what was recorded and keys are listed that begin as
asked for. -/
theorem objects_apart (hid : a.document.id ≠ b.document.id) :
    (a.Apart b ↔ ¬ a.Under b ∧ ¬ b.Under a) ∧
    ('/' ∉ a.document.ownerId.toList → '/' ∉ b.document.ownerId.toList → a.Apart b) ∧
    (¬ a.Under b → ¬ b.Under a → ∀ (p : Pipeline) (jobId : String),
      (p.poll jobId).Abides ((Dialogue.sparing b).among (Store.Records jobId a.staging))
        (fun _ => True) ∧
      (p.wait jobId).Abides ((Dialogue.sparing b).among (Store.Records jobId a.staging))
        (fun _ => True)) := by
  refine ⟨apart_iff hid, fun ha hb => ?_, fun hab hba p jobId => ?_⟩
  · exact (apart_iff hid).mpr ⟨not_under_of_slash_not_mem ha, not_under_of_slash_not_mem hb⟩
  · have hapart := (apart_iff hid).mpr ⟨hab, hba⟩
    exact ⟨Pipeline.poll_spares hapart p jobId, Pipeline.wait_spares hapart p jobId⟩

/-! ### An owner whose id is a path -/

namespace Nested

def document (id ownerId : String) : Document :=
  { lockedUpload with ownerId := ownerId }.toDocument .image id Background.start.timestamp

theorem document_id (id ownerId : String) : (document id ownerId).id = id := rfl

/-- A dispatch of a document of some owner. -/
def dispatch (id ownerId : String) (hid : isUuid id = true) : Dispatch where
  document := document id ownerId
  bucket := Background.pipeline.bucket
  now := Background.start
  mime := "image/png"
  fileType := .image
  identified := (document_id id ownerId).symm ▸ hid
  typed := rfl

def outer : Dispatch := dispatch "6f1c3a52-9d0b-4e7a-8c35-d2b1e4f60a97" "o" rfl

/-- A dispatch of another document. -/
def other (ownerId : String) : Dispatch :=
  dispatch "0b8e4d17-52f3-4c6a-9e01-7a3d5c9f2b64" ownerId rfl

/-- The job that the first dispatch has left. -/
def store : Store :=
  { Store.empty with
    jobs := [(Jobs.Change.polling "h" outer.staging.toJson outer.now.timestamp).apply
      outer.now.timestamp
      ((NewJob.onDocument "o" outer.document.id .documentExtract).row "j" outer.now .minute)] }

/-- A result for the document whose owner goes by the path of the first dispatch. -/
def result : String := (other outer.path).staging.outputFolder ++ "output-0.json"

def objects : ObjectStore :=
  (ObjectStore.empty "b").insert result "application/json" ByteArray.empty

/-- Keys are listed as they are there. -/
def surroundings : Surroundings Unit where
  allows
    | .list start, _, answer, _ => answer = .ok (objects.list start)
    | _, _, _, _ => True

theorem store_records : store.Records "j" outer.staging := by
  intro r hr _
  obtain rfl := List.mem_singleton.mp hr
  rfl

end Nested
open Nested

/-- Two documents of one owner. -/
theorem objects_apart_beside : outer.document.id ≠ (other "o").document.id ∧
    outer.Apart (other "o") ∧ store.Records "j" outer.staging ∧
    (Background.pipeline.poll "j").Abides
      ((Dialogue.sparing (other "o")).among (Store.Records "j" outer.staging)) (fun _ => True) := by
  have hid : outer.document.id ≠ (other "o").document.id := by decide +kernel
  obtain ⟨hiff, hslash, hspares⟩ := objects_apart hid
  have hapart : outer.Apart (other "o") := hslash (by decide) (by decide)
  obtain ⟨houter, hother⟩ := hiff.mp hapart
  exact ⟨hid, hapart, store_records, (hspares houter hother _ _).1⟩

/-- The owner of one document goes by the path of another document's dispatch: a check on the job of
that dispatch lists and reads a result that is the owner's. -/
theorem objects_shared_under : outer.document.id ≠ (other outer.path).document.id ∧
    ¬ outer.Apart (other outer.path) ∧ (other outer.path).Owns result ∧
    ∃ next, surroundings.Reaches (Background.pipeline.poll "j").run (store, ())
      (.ask (.get result) next) (store, ()) := by
  have hid : outer.document.id ≠ (other outer.path).document.id := by decide +kernel
  have hunder : (other outer.path).Under outer := by decide +kernel
  refine ⟨hid, fun h => ((apart_iff hid).mp h).2 hunder, .inr (by decide +kernel), ?_⟩
  exact ⟨_, .inr ⟨_, (store, ()), ⟨rfl, rfl⟩, .inr ⟨.ok ⟨true, none, none⟩, (store, ()), ⟨rfl, trivial⟩,
    .inr ⟨_, (store, ()), ⟨rfl, rfl⟩, .inl ⟨rfl, rfl⟩⟩⟩⟩⟩

end Dispatch
end Quire
