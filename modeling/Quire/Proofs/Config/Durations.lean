import Quire.Pipeline.Settings
import Quire.Proofs.Config.Loading

/-! The durations that a configuration sets.

There are two, set in seconds by words of 64 bits that no check looks at, so that a file may hold any
of them (`load_fileOf`). A span has no more seconds than there are in a signed word of milliseconds:
the durations are what is written up to there and no further. Of the words beyond, the last ones are
read as negative numbers, and the others are no spans at all (`Span.ofWord?_eq`). -/
namespace Quire

/-! ### Spans -/

theorem Span.ofWord?_eq (w : UInt64) :
    ofWord? w =
      if w.toNat ≤ limit then some ⟨w.toNat⟩
      else if 0x10000000000000000 ≤ w.toNat + limit then some ⟨w.toNat - 0x10000000000000000⟩
      else none := by
  have hword := w.toNat_lt
  have hlimit : limit = 9223372036854775 := by decide
  unfold ofWord?
  dsimp only
  rw [hlimit]
  split_ifs <;> first | rfl | omega

/-- A word of seconds is the span that it says just if it is within the limit. -/
theorem Span.ofWord?_eq_some_iff {w : UInt64} : ofWord? w = some ⟨w.toNat⟩ ↔ w.toNat ≤ limit := by
  rw [ofWord?_eq]
  split_ifs with hfits hlast
  · exact iff_of_true rfl hfits
  · refine iff_of_false (fun heq => ?_) hfits
    have := congrArg Span.seconds (Option.some.inj heq)
    dsimp only at this
    omega
  · exact iff_of_false nofun hfits

namespace Config
open Json (Record)

/-! ### Words in a file -/

/-- A word that stands under a key, or else the standard one. -/
inductive Stands (standard : UInt64) : UInt64 → Option Json → Prop
  | written (w : UInt64) : Stands standard w (some (.ofNat w.toNat))
  | omitted : Stands standard standard none

theorem stands_of_gives {origin : Json.Origin} {key : String} {standard w : UInt64}
    {members : String → Option Json}
    (h : (Record.optional key Json.Shape.word64 standard).Gives origin members w) :
    Stands standard w (members key) := by
  rcases h.of_field with ⟨j, hstands, hread⟩ | ⟨hnone, hstandard⟩
  · rw [hstands, Json.eq_ofNat_of_word64 hread]
    exact .written w
  · rw [hnone, ← Except.ok.inj hstandard]
    exact .omitted

/-- A word that stands under a key of a part of an object, or else the standard one. -/
structure Sets (members : List (String × Json)) (part key : String) (standard w : UInt64) :
    Prop where
  written : ∀ inner, members.lookup part = some (.object inner) → (inner.map Prod.fst).Nodup →
    Stands standard w (inner.lookup key)
  missing : members.lookup part = none → w = standard

theorem readText_of_load {text : String} {c : Config} (h : load text = .ok c) :
    Json.readText shape text = .ok c :=
  (load_eq_ok_iff.mp h).1

section
variable {members : List (String × Json)} {origin : Json.Origin}

theorem referenceTtl_stands {i : Ingest} (hnodup : (members.map Prod.fst).Nodup)
    (h : Ingest.shape origin (Json.object members).toOutline = .ok i) :
    Stands Ingest.standard.referenceTtl i.referenceTtl
      (members.lookup "signed_reference_ttl_secs") := by
  have hall := Record.gives_of_shape "IngestConfig" ⟨rfl, by decide⟩ hnodup h
  obtain ⟨_, _, hinit, -, rfl⟩ := hall.of_seq
  obtain ⟨_, ttl, hbatch, httl, rfl⟩ := hinit.of_seq
  obtain ⟨_, _, hsize, -, rfl⟩ := hbatch.of_seq
  obtain ⟨_, _, hthreshold, -, rfl⟩ := hsize.of_seq
  obtain ⟨_, -, rfl⟩ := hthreshold.of_map
  exact stands_of_gives httl

theorem heartbeatExtension_stands {jobs : Jobs} (hnodup : (members.map Prod.fst).Nodup)
    (h : Jobs.shape origin (Json.object members).toOutline = .ok jobs) :
    Stands Jobs.standard.heartbeatExtension jobs.heartbeatExtension
      (members.lookup "heartbeat_extension_secs") := by
  have hall := Record.gives_of_shape "JobsConfig" ⟨rfl, by decide⟩ hnodup h
  obtain ⟨extension, hextension, rfl⟩ := hall.of_map
  exact stands_of_gives hextension

/-- The parts of an object that are read as those of a configuration. -/
theorem parts_of_shape {c : Config} (hnodup : (members.map Prod.fst).Nodup)
    (h : shape origin (Json.object members).toOutline = .ok c) :
    (Record.optional "ingest" Ingest.shape .standard).Gives origin (members.lookup ·) c.ingest ∧
      (Record.optional "jobs" Jobs.shape .standard).Gives origin (members.lookup ·) c.jobs := by
  have hall := Record.gives_of_shape "Config" ⟨rfl, by decide⟩ hnodup h
  obtain ⟨_, _, h₈, -, rfl⟩ := hall.of_seq
  obtain ⟨_, jobs, h₇, hjobs, rfl⟩ := h₈.of_seq
  obtain ⟨_, ingest, h₆, hingest, rfl⟩ := h₇.of_seq
  obtain ⟨_, _, h₅, -, rfl⟩ := h₆.of_seq
  obtain ⟨_, _, h₄, -, rfl⟩ := h₅.of_seq
  obtain ⟨_, _, h₃, -, rfl⟩ := h₄.of_seq
  obtain ⟨_, _, h₂, -, rfl⟩ := h₃.of_seq
  obtain ⟨_, _, h₁, -, rfl⟩ := h₂.of_seq
  obtain ⟨_, -, rfl⟩ := h₁.of_map
  exact ⟨hingest, hjobs⟩

theorem sets_of_gives {α : Type} {part key : String} {inner : Json.Shape α} {standard a : α}
    (value : α → UInt64)
    (h : (Record.optional part inner standard).Gives origin (members.lookup ·) a)
    (hinner : ∀ {ms : List (String × Json)} {a}, (ms.map Prod.fst).Nodup →
      inner origin (Json.object ms).toOutline = .ok a →
        Stands (value standard) (value a) (ms.lookup key)) :
    Sets members part key (value standard) (value a) := by
  rcases h.of_field with ⟨j, hstands, hread⟩ | ⟨hnone, hstandard⟩
  · constructor
    case written =>
      intro ms hobject hnodup
      obtain rfl := Option.some.inj (hstands.symm.trans hobject)
      exact hinner hnodup hread
    case missing => exact fun hnone => nomatch hstands.symm.trans hnone
  · constructor
    case written => exact fun ms hobject _ => nomatch hnone.symm.trans hobject
    case missing => exact fun _ => congrArg value (Except.ok.inj hstandard).symm

/-- What an object sets is what is read of it. -/
theorem sets_of_shape {c : Config} (hnodup : (members.map Prod.fst).Nodup)
    (h : shape origin (Json.object members).toOutline = .ok c) :
    Sets members "ingest" "signed_reference_ttl_secs" 3600 c.ingest.referenceTtl ∧
      Sets members "jobs" "heartbeat_extension_secs" 600 c.jobs.heartbeatExtension :=
  have hparts := parts_of_shape hnodup h
  ⟨sets_of_gives Ingest.referenceTtl hparts.1 referenceTtl_stands,
    sets_of_gives Jobs.heartbeatExtension hparts.2 heartbeatExtension_stands⟩

end

/-! ### Files that set both -/

/-- What must be given, and both durations. -/
def fileOf (ttl extension : UInt64) : Json :=
  .object [
    ("version", .text "1.0"),
    ("storage", .object [("temp_bucket", .text "tmp"), ("uploads_root", .text "/uploads")]),
    ("ocr", .object [("project_id", .text "p"), ("processor_id", .text "proc")]),
    ("ingest", .object [("signed_reference_ttl_secs", .ofNat ttl.toNat)]),
    ("jobs", .object [("heartbeat_extension_secs", .ofNat extension.toNat)])]

def configOf (ttl extension : UInt64) : Config where
  version := "1.0"
  database := .standard
  storage := ⟨"tmp", "/uploads", "https://storage.googleapis.com"⟩
  credentials := accountKey
  ocr := ⟨"p", "us", "proc", none, Ocr.syncSizeCeiling, 10, 90, .standard⟩
  cleaning := .standard
  ingest := { Ingest.standard with referenceTtl := ttl }
  jobs := ⟨extension⟩
  generation := .standard

theorem read_fileOf (ttl extension : UInt64) (origin : Json.Origin) :
    shape origin (fileOf ttl extension).toOutline = .ok (configOf ttl extension) := by
  have hingest : Ingest.shape origin
      (Json.object [("signed_reference_ttl_secs", .ofNat ttl.toNat)]).toOutline =
        .ok { Ingest.standard with referenceTtl := ttl } := by
    refine Record.shape_object "IngestConfig" ⟨rfl, by decide⟩ ?_ ?_
    · exact List.pairwise_singleton _ _
    · exact (((((Record.Gives.missing rfl).map Ingest.mk).seq (.missing rfl)).seq
        (.missing rfl)).seq (.given rfl (Json.word64_ofNat ttl))).seq (.missing rfl)
  have hjobs : Jobs.shape origin
      (Json.object [("heartbeat_extension_secs", .ofNat extension.toNat)]).toOutline =
        .ok ⟨extension⟩ := by
    refine Record.shape_object "JobsConfig" ⟨rfl, by decide⟩ ?_ ?_
    · exact List.pairwise_singleton _ _
    · exact (Record.Gives.given rfl (Json.word64_ofNat extension)).map Jobs.mk
  refine Record.shape_object "Config" ⟨rfl, by decide⟩ ?_ ?_
  · show ["version", "storage", "ocr", "ingest", "jobs"].Nodup
    decide
  · exact ((((((((Record.Gives.given rfl rfl).map Config.mk).seq (.missing rfl)).seq
      (.given rfl rfl)).seq (.missing rfl)).seq (.given rfl rfl)).seq (.missing rfl)).seq
        (.given rfl hingest)).seq (.given rfl hjobs) |>.seq (.missing rfl)

theorem check_configOf (ttl extension : UInt64) : (configOf ttl extension).check = .ok () := by
  unfold check configOf
  dsimp only
  rfl

/-- Any two words are accepted. -/
theorem load_fileOf (ttl extension : UInt64) :
    load (fileOf ttl extension).compact = .ok (configOf ttl extension) := by
  have hword (w : UInt64) : (Json.ofNat w.toNat).Fits :=
    Json.fits_ofNat (Nat.le_of_lt_succ w.toNat_lt)
  have hfits : (fileOf ttl extension).Fits := by
    simp [fileOf, Json.Fits, Json.MembersFit, hword]
  refine load_eq_ok_iff.mpr ⟨?_, check_configOf ttl extension⟩
  rw [Json.readText_compact shape hfits (Nat.le_of_ble_eq_true rfl), read_fileOf]

theorem referenceTtl_of_config {c : Config} {ttl : Span} :
    (∃ settings, Settings.ofConfig? c = some settings ∧ settings.referenceTtl = ttl) ↔
      Span.ofWord? c.ingest.referenceTtl = some ttl := by
  unfold Settings.ofConfig?
  constructor
  · rintro ⟨settings, hsettings, rfl⟩
    obtain ⟨ttl, httl, rfl⟩ := Option.map_eq_some_iff.mp hsettings
    exact httl
  · intro httl
    rw [httl]
    exact ⟨_, rfl, rfl⟩

/-- Up to the limit of a span, and no further, the durations of an accepted configuration are the
numbers of seconds that it has; these are the words that stand in the file, or the standard ones. -/
theorem durations_as_written {text : String} {c : Config} (hload : load text = .ok c) :
    ((∃ settings, Settings.ofConfig? c = some settings ∧
        settings.referenceTtl = ⟨c.ingest.referenceTtl.toNat⟩) ↔
      c.ingest.referenceTtl.toNat ≤ Span.limit) ∧
    (c.jobs.heartbeat? = some ⟨c.jobs.heartbeatExtension.toNat⟩ ↔
      c.jobs.heartbeatExtension.toNat ≤ Span.limit) ∧
    ∀ members, (Json.object members).Written text.toUTF8 → (members.map Prod.fst).Nodup →
      Sets members "ingest" "signed_reference_ttl_secs" 3600 c.ingest.referenceTtl ∧
      Sets members "jobs" "heartbeat_extension_secs" 600 c.jobs.heartbeatExtension := by
  refine ⟨referenceTtl_of_config.trans Span.ofWord?_eq_some_iff, Span.ofWord?_eq_some_iff, ?_⟩
  intro members hwritten hnodup
  have hread := readText_of_load hload
  rw [Json.readText_written shape hwritten] at hread
  exact sets_of_shape hnodup hread

theorem durations_as_written_minute :
    load (fileOf 60 60).compact = .ok (configOf 60 60) ∧
    (configOf 60 60).jobs.heartbeat? = some ⟨60⟩ ∧
    ∃ settings, Settings.ofConfig? (configOf 60 60) = some settings ∧
      settings.referenceTtl = ⟨60⟩ := by
  have hload := load_fileOf 60 60
  obtain ⟨httl, hextension, -⟩ := durations_as_written hload
  exact ⟨hload, hextension.mpr (by decide), httl.mpr (by decide)⟩

/-- Of the largest word the configuration makes a negative duration, and of half of it none. -/
theorem vast_durations_break :
    load (fileOf 0xFFFFFFFFFFFFFFFF 0xFFFFFFFFFFFFFFFF).compact =
      .ok (configOf 0xFFFFFFFFFFFFFFFF 0xFFFFFFFFFFFFFFFF) ∧
    (configOf 0xFFFFFFFFFFFFFFFF 0xFFFFFFFFFFFFFFFF).jobs.heartbeat? = some ⟨-1⟩ ∧
    (∃ settings, Settings.ofConfig? (configOf 0xFFFFFFFFFFFFFFFF 0xFFFFFFFFFFFFFFFF) =
      some settings ∧ settings.referenceTtl = ⟨-1⟩) ∧
    load (fileOf 0x7FFFFFFFFFFFFFFF 0x7FFFFFFFFFFFFFFF).compact =
      .ok (configOf 0x7FFFFFFFFFFFFFFF 0x7FFFFFFFFFFFFFFF) ∧
    (configOf 0x7FFFFFFFFFFFFFFF 0x7FFFFFFFFFFFFFFF).jobs.heartbeat? = none ∧
    Settings.ofConfig? (configOf 0x7FFFFFFFFFFFFFFF 0x7FFFFFFFFFFFFFFF) = none :=
  ⟨load_fileOf _ _, by decide, referenceTtl_of_config.mpr (by decide), load_fileOf _ _, by decide,
    by decide⟩

end Config

end Quire
