import Quire.Config.Load
import Quire.Proofs.Json.Order

/-! Loading what has been written.

An accepted configuration is written with every field of every part, standard values included, and what
is absent as `null`. So the reader has nothing left to fill in (`Config.restores`), and what it reads is
the configuration that has passed the checks before (`Config.written_loads_again`). -/
namespace Quire
open Json.Shape
open Json (Record)

variable {n : Nat}

/-! ### Words -/

theorem Label.restores {α : Type} [Label α]
    (h : ∀ origin (a : α), (shape : Json.Shape α) origin (.text (some (word a))) = .ok a) :
    (shape : Json.Shape α).Restores n toJson :=
  restores_scalar (fun a origin => h origin a) (fun _ => trivial) fun _ => trivial

section
variable (origin : Json.Origin)

theorem Discipline.read_word (d : Discipline) :
    (Label.shape : Json.Shape Discipline) origin (.text (some (Label.word d))) = .ok d := by
  cases d <;> rfl

theorem JobType.read_word (t : JobType) :
    (Label.shape : Json.Shape JobType) origin (.text (some (Label.word t))) = .ok t := by
  cases t <;> rfl

theorem Cleaning.LanguageHint.read_word (h : LanguageHint) :
    (Label.shape : Json.Shape LanguageHint) origin (.text (some (Label.word h))) = .ok h := by
  cases h <;> rfl

end

/-! ### The disciplines that are set -/

namespace Polling

/-- The job types that are set, with their disciplines. -/
def entries (p : Polling) : List (JobType × Discipline) :=
  Label.all.filterMap fun t => (p.get? t).map fun d => (t, d)

/-- An entry as it is written. -/
def member (e : JobType × Discipline) : String × Json := (Label.word e.1, Label.toJson e.2)

theorem toJson_eq (p : Polling) : p.toJson = .ofMembers (p.entries.map member) := by
  rw [entries, List.map_filterMap, toJson]
  simp only [Option.map_map]
  rfl

theorem mem_entries {p : Polling} {e : JobType × Discipline} (h : e ∈ p.entries) :
    p.get? e.1 = some e.2 := by
  obtain ⟨t, -, ht⟩ := List.mem_filterMap.mp h
  obtain ⟨d, hd, rfl⟩ := Option.map_eq_some_iff.mp ht
  exact hd

theorem nodup_entries (p : Polling) : ((p.entries.map member).map Prod.fst).Nodup := by
  have hwords : (Label.all : List JobType).Pairwise fun t u => Label.word t ≠ Label.word u := by
    decide
  rw [List.map_map]
  refine List.pairwise_map.mpr (hwords.filterMap _ ?_)
  intro t u hne e he e' he'
  obtain ⟨d, -, rfl⟩ := Option.map_eq_some_iff.mp he
  obtain ⟨d', -, rfl⟩ := Option.map_eq_some_iff.mp he'
  exact hne

theorem set_comm (p : Polling) {t u : JobType} (h : t ≠ u) (d e : Discipline) :
    (p.set t d).set u e = (p.set u e).set t d := by
  cases t <;> cases u <;> first | rfl | exact absurd rfl h

theorem set_entries (p : Polling) :
    p.entries.foldl (fun p (t, d) => p.set t d) empty = p := by
  obtain ⟨_ | extract, _ | generate⟩ := p <;> rfl

/-- The disciplines may be set in any order. -/
theorem set_perm {p : Polling} {es : List (JobType × Discipline)} (h : es.Perm p.entries) :
    es.foldl (fun p (t, d) => p.set t d) empty = p := by
  refine (h.foldl_eq' ?_ _).trans p.set_entries
  intro e he e' he' q
  have hd := mem_entries (h.mem_iff.mp he)
  have hd' := mem_entries (h.mem_iff.mp he')
  by_cases heq : e.1 = e'.1
  · rw [heq, hd'] at hd
    rw [Prod.ext heq (Option.some.inj hd).symm]
  · exact set_comm q heq _ _

theorem read_entries (origin : Json.Origin) (es : List (JobType × Discipline)) :
    Json.Shape.entries Label.shape Label.shape origin (Json.memberOutlines (es.map member)) =
      .ok es := by
  induction es with
  | nil => rfl
  | cons e rest ih =>
    obtain ⟨t, d⟩ := e
    rw [List.map_cons, member, Json.memberOutlines, Json.Shape.entries, ih]
    show ((Label.shape : Json.Shape JobType) origin (.text (some (Label.word t))) >>= _) = _
    rw [t.read_word]
    show ((Label.shape : Json.Shape Discipline) origin (.text (some (Label.word d))) >>= _) = _
    rw [d.read_word]
    rfl

theorem read_perm {p : Polling} {ms : List (String × Json)}
    (h : ms.Perm (p.entries.map member)) (origin : Json.Origin) :
    shape origin (Json.toOutline (.object ms)) = .ok p := by
  obtain ⟨es, rfl, hes⟩ : Relation.Comp (· = List.map member ·) List.Perm ms p.entries := by
    rw [List.eq_map_comp_perm]
    exact h
  rw [Json.toOutline, shape, Json.Shape.map, read_entries]
  exact congrArg Except.ok (set_perm hes)

theorem forall_member {p : Polling} {motive : String × Json → Prop} (h : ∀ e, motive (member e)) :
    ∀ m ∈ p.entries.map member, motive m := by
  intro m hm
  obtain ⟨e, -, rfl⟩ := List.mem_map.mp hm
  exact h e

theorem restores : shape.Restores (n + 1) toJson where
  read := by
    intro p j hj origin
    obtain ⟨sorted, hsorted, hperm⟩ := Json.exists_ofMembers p.nodup_entries
    rw [toJson_eq, hsorted] at hj
    have hnodup : (sorted.map Prod.fst).Nodup := (hperm.map _).nodup_iff.mpr p.nodup_entries
    have hscalars : ∀ m ∈ p.entries.map member, m.2.IsScalar := forall_member fun _ => trivial
    have hscalar : ∀ m ∈ sorted, m.2.IsScalar := fun m hm => hscalars m (hperm.mem_iff.mp hm)
    obtain ⟨ms, rfl, hms⟩ := hj.exists_perm hnodup hscalar
    exact read_perm (hms.trans hperm) origin
  fits p := by
    rw [toJson_eq]
    exact Json.fits_ofMembers p.nodup_entries (forall_member fun _ => trivial)
  shallow p := by
    rw [toJson_eq]
    exact Json.depth_ofMembers_le p.nodup_entries (forall_member fun _ => Nat.zero_le n)

end Polling

/-! ### The parts -/

theorem SecretSource.tells (name : String) (standardEnv : Option String) (s : SecretSource) :
    (record name standardEnv).Tells n s (s.members name) :=
  Record.Tells.field restores_optionString s.direct |>.map SecretSource.mk
    |>.seq (.field restores_optionString s.file)
    |>.seq (.field restores_optionString s.envName)

namespace Config

theorem Retry.tells (r : Retry) : record.Tells n r r.members :=
  Record.Tells.field restores_word32 r.maxAttempts |>.map Retry.mk
    |>.seq (.field restores_word64 r.backoffMillis)

theorem Database.restores :
    Database.shape.Restores (n + 1) fun d => .ofMembers [("path", .ofOption .text d.path)] :=
  Record.restores "DatabaseConfig" ⟨rfl, by decide⟩ fun d =>
    ⟨_, Record.Tells.field restores_optionString d.path |>.map Database.mk, rfl⟩

theorem Storage.restores : Storage.shape.Restores (n + 1) toJson :=
  Record.restores "StorageConfig" ⟨rfl, by decide⟩ fun s =>
    ⟨_, Record.Tells.field restores_string s.tempBucket |>.map Storage.mk
      |>.seq (.field restores_string s.uploadsRoot)
      |>.seq (.field restores_string s.endpoint), rfl⟩

theorem credentials_restores :
    credentialsShape.Restores (n + 1) fun s => .ofMembers (s.members "service_account_key") :=
  Record.restores "CredentialsConfig" ⟨rfl, by decide⟩ fun s => ⟨_, s.tells _ _, rfl⟩

theorem Ocr.restores : Ocr.shape.Restores (n + 1) toJson :=
  Record.restores "OcrConfig" ⟨rfl, by decide⟩ fun o =>
    ⟨_, Record.Tells.field restores_string o.projectId |>.map Ocr.mk
      |>.seq (.field restores_string o.location)
      |>.seq (.field restores_string o.processorId)
      |>.seq (.field restores_optionString o.endpointOverride)
      |>.seq (.field restores_word64 o.syncSizeLimit)
      |>.seq (.field restores_word64 o.pollInterval)
      |>.seq (.field restores_word32 o.maxPollAttempts)
      |>.seq o.retry.tells, rfl⟩

theorem Cleaning.restores : Cleaning.shape.Restores (n + 1) toJson :=
  Record.restores "CleaningConfig" ⟨rfl, by decide⟩ fun c =>
    ⟨_, Record.Tells.field restores_boolean c.enabled |>.map Cleaning.mk
      |>.seq (.field restores_string c.endpoint)
      |>.seq (.field restores_string c.model)
      |>.seq (.field (Label.restores Quire.Cleaning.LanguageHint.read_word) c.languageHint)
      |>.seq (c.apiKey.tells _ _)
      |>.seq (.field restores_size c.concurrency)
      |>.seq (.field restores_size c.minLength)
      |>.seq c.retry.tells, rfl⟩

theorem Ingest.restores : Ingest.shape.Restores (n + 2) toJson :=
  Record.restores "IngestConfig" ⟨rfl, by decide⟩ fun i =>
    ⟨_, Record.Tells.field restores_size i.nativeTextThreshold |>.map Ingest.mk
      |>.seq (.field restores_word64 i.nativeSizeLimit)
      |>.seq (.field restores_size i.pageInsertBatch)
      |>.seq (.field restores_word64 i.referenceTtl)
      |>.seq (.field Polling.restores i.polling), rfl⟩

theorem Jobs.restores : Jobs.shape.Restores (n + 1) fun j =>
    .ofMembers [("heartbeat_extension_secs", .ofNat j.heartbeatExtension.toNat)] :=
  Record.restores "JobsConfig" ⟨rfl, by decide⟩ fun j =>
    ⟨_, Record.Tells.field restores_word64 j.heartbeatExtension |>.map Jobs.mk, rfl⟩

theorem Generation.restores : Generation.shape.Restores (n + 1) toJson :=
  Record.restores "GenerationConfig" ⟨rfl, by decide⟩ fun g =>
    ⟨_, Record.Tells.field restores_string g.endpoint |>.map Generation.mk
      |>.seq (.field restores_string g.model)
      |>.seq (.field restores_string g.outputLanguage)
      |>.seq (g.apiKey.tells _ _)
      |>.seq (.field restores_size g.maxSourceChars)
      |>.seq (.field restores_word32 g.maxTokens)
      |>.seq g.retry.tells, rfl⟩

/-- Any configuration is read back, the checks aside. -/
theorem restores : shape.Restores (n + 3) toJson :=
  Record.restores "Config" ⟨rfl, by decide⟩ fun c =>
    ⟨_, Record.Tells.field restores_string c.version |>.map Config.mk
      |>.seq (.field Database.restores c.database)
      |>.seq (.field Storage.restores c.storage)
      |>.seq (.field credentials_restores c.credentials)
      |>.seq (.field Ocr.restores c.ocr)
      |>.seq (.field Cleaning.restores c.cleaning)
      |>.seq (.field Ingest.restores c.ingest)
      |>.seq (.field Jobs.restores c.jobs)
      |>.seq (.field Generation.restores c.generation), rfl⟩

/-! ### Loading again -/

/-- A text is loaded just if it is read and what is read passes the checks. -/
theorem load_eq_ok_iff {text : String} {c : Config} :
    load text = .ok c ↔ Json.readText shape text = .ok c ∧ c.check = .ok () := by
  unfold load
  cases Json.readText shape text with
  | error fault => exact iff_of_false nofun fun h => nomatch h.1
  | ok read =>
    show (read.check >>= fun _ => .ok read) = .ok c ↔ _
    constructor
    · intro h
      cases hcheck : read.check with
      | error e =>
        rw [hcheck] at h
        cases h
      | ok _ =>
        rw [hcheck] at h
        cases h
        exact ⟨rfl, hcheck⟩
    · rintro ⟨hread, hcheck⟩
      obtain rfl := Except.ok.inj hread
      rw [hcheck]
      rfl

/-- Whatever configuration a text is loaded as is loaded again from what it is written as: from the text
that is printed here, and from any other one with the same members, in whatever order and with whatever
blanks and escapes. -/
theorem written_loads_again {text : String} {c : Config} (h : load text = .ok c) :
    load c.toJson.compact = .ok c ∧
    ∀ {j : Json} {again : String}, c.toJson.Reordered j → j.Written again.toUTF8 →
      load again = .ok c := by
  have hcheck := (load_eq_ok_iff.mp h).2
  have hall := restores (n := 0)
  have hagain {j : Json} {again : String} (hj : c.toJson.Reordered j)
      (hwritten : j.Written again.toUTF8) : load again = .ok c := by
    refine load_eq_ok_iff.mpr ⟨?_, hcheck⟩
    rw [Json.readText_written shape hwritten]
    exact hall.read hj .text
  have hdepth : c.toJson.depth ≤ Json.depthLimit := Nat.le_trans (hall.shallow c) (by decide)
  exact ⟨hagain (.same _) (Json.written_compact (hall.fits c) hdepth), hagain⟩

/-- What must be given, two secrets that are not looked for in the environment, and a discipline. -/
def sparseFile : Json :=
  .object [
    ("version", .text "1.0"),
    ("storage", .object [("temp_bucket", .text "tmp"), ("uploads_root", .text "/uploads")]),
    ("credentials", .object [("service_account_key_env_var", .null)]),
    ("ocr", .object [("project_id", .text "p"), ("processor_id", .text "proc")]),
    ("cleaning", .object [("language_hint", .text "mixed"), ("api_key_env_var", .null)]),
    ("ingest", .object [("polling", .object [("generate_questions", .text "in_process")])])]

def sparse : Config where
  version := "1.0"
  database := .standard
  storage := ⟨"tmp", "/uploads", "https://storage.googleapis.com"⟩
  credentials := ⟨none, none, none⟩
  ocr := ⟨"p", "us", "proc", none, Ocr.syncSizeCeiling, 10, 90, .standard⟩
  cleaning := { Cleaning.standard with languageHint := .mixed, apiKey := ⟨none, none, none⟩ }
  ingest := { Ingest.standard with polling := ⟨none, some .inProcess⟩ }
  jobs := .standard
  generation := .standard

theorem load_sparseFile : load sparseFile.compact = .ok sparse := by
  have hfits : sparseFile.Fits := by simp [sparseFile, Json.Fits, Json.MembersFit]
  refine load_eq_ok_iff.mpr ⟨?_, rfl⟩
  rw [Json.readText_compact shape hfits (Nat.le_of_ble_eq_true rfl)]
  rfl

theorem written_loads_again_sparse :
    load sparseFile.compact = .ok sparse ∧ load sparse.toJson.compact = .ok sparse :=
  ⟨load_sparseFile, (written_loads_again load_sparseFile).1⟩

end Config
end Quire
