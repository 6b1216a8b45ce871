import Quire.Rehearsal.Names
import Quire.Rehearsal.Step.Pipeline
import Quire.Rehearsal.Step.Store

/-! A rehearsal from a script in JSON: its settings, and its steps in their order.

Every step is answered by what came of it and, if that is wanted, by the state of the world after
it. Answers tell identifiers and times by their names. -/
namespace Quire.Rehearsal
open Lookup

/-- A rehearsal under way. -/
structure Scene where
  world : World
  pipeline : Pipeline
  names : Names
  /-- The step that is next. -/
  next : Nat
  /-- The state is shown after every step. -/
  showsState : Bool

namespace Scene

def act (p : Pipeline) (j : Json) : Act :=
  (Step.party j <|> Step.pipeline p j <|> Step.ledger p.ledger j <|> Step.store j).getD
    (pure (.ofMembers [("error", .text "UnknownStep")]))

def cellJson : Cell → Json
  | .integer n => .ofInt n
  | .real x => .ofFloat x
  | .text s => .text s

/-- The state of the world. -/
def state (names : Names) (w : World) : Json :=
  let s := w.store
  let documents := s.documents.map fun d =>
    .array [.text d.id, Label.toJson d.status, cellJson d.pageCount, cellJson d.activeVersion]
  let jobs := s.jobs.map fun r => .array [.text r.id, Label.toJson r.status]
  let keys := (w.objects.keys.map names.shown).mergeSort fun a b => a ≤ b
  let calls := [w.calls.submit, w.calls.status, w.calls.process, w.calls.clean, w.calls.generate]
  .ofMembers
    [("docs", .array documents), ("jobs", .array jobs), ("pages", .ofNat s.pages.length),
      ("events", .ofNat s.events.length), ("versions", .ofNat s.versions.length),
      ("artifacts", .ofNat s.artifacts.length), ("objects", .array (keys.map .text)),
      ("calls", .array (calls.map .ofNat))]

def step (s : Scene) (j : Json) : Json × Scene :=
  let (result, w) :=
    (act s.pipeline (j.mapTexts s.names.read)).run { s.world with now := timeOf s.next }
  let names := s.names.learn w.store
  let state := if s.showsState then [("state", state names w)] else []
  let answer := Json.ofMembers (("result", result) :: state)
  (answer.mapTexts names.shown, { s with world := w, names := names, next := s.next + 1 })

def steps (s : Scene) : List Json → List Json
  | [] => []
  | j :: rest =>
    let (answer, s) := s.step j
    answer :: steps s rest

/-! ### Settings -/

def cleanerOf (j : Json) : Option Cleaner :=
  match (j.get? "cleaner").getD .null with
  | .bool false => none
  | c =>
    some ⟨text? c "summary", (list c "fail_on").map asText, Described.cleaning (field c "err")⟩

def pollingOf (j : Json) (standard : Polling) : Polling :=
  match (field? j "polling").map (Json.readValue Polling.shape) with
  | some (.ok p) => p
  | _ => standard

def settingsOf (j : Json) : Settings :=
  let s := Settings.standard
  { nativeTextThreshold := nat j "native_text_threshold" s.nativeTextThreshold
    nativeSizeLimit := nat j "native_size_limit_bytes" s.nativeSizeLimit
    syncSizeLimit := nat j "sync_size_limit_bytes" s.syncSizeLimit
    referenceTtl := ⟨int j "reference_ttl_secs" s.referenceTtl.seconds⟩
    pageInsertBatch := nat j "page_insert_batch" s.pageInsertBatch
    cleaningEnabled := flag j "cleaning_enabled" s.cleaningEnabled
    cleaningConcurrency := nat j "cleaning_concurrency" s.cleaningConcurrency
    cleaningMinLength := nat j "cleaning_min_length" s.cleaningMinLength
    languageHint := (Label.ofWord? (text j "language_hint")).getD s.languageHint
    pollIntervalMillis := 0
    maxPollAttempts := word32 j "max_poll_attempts" 5
    polling := pollingOf j s.polling }

/-- The world before the first step. -/
def worldOf (j : Json) (config : Json) : World where
  store := .empty
  now := timeOf 0
  issued := 0
  root := uploadsRoot
  files := (Entry.directory []).write uploadsRoot (.directory [])
  known := Described.known j
  extractor := if text config "extractor" == "lopdf" then .real else .scripted
  cleaner := cleanerOf config
  objects := .empty "temp"
  faults := []
  cues := []
  shards := []
  submitError := none
  processError := none
  text := ""
  output := none
  generated := []
  hooks := []
  calls := .none

/-- None if deadlines lie outside the calendar. -/
def ofScript? (j : Json) : Option Scene := do
  let config := field j "config"
  let steps := list j "steps"
  let heartbeat ← Respite.ofSpan? ⟨int config "heartbeat_secs" 600⟩
  let world := worldOf j config
  let offsets := (0 :: heartbeat.seconds :: steps.map (int · "offset_secs")).eraseDups
  return {
    world := world
    pipeline :=
      ⟨⟨heartbeat⟩, settingsOf config, world.objects.bucket,
        world.cleaner.map fun _ => ⟨"fake-cleaner", "v1"⟩⟩
    names := ⟨[], Names.timesOf steps.length offsets⟩
    next := 1
    showsState := flag j "state" true }

/-- The answers to the steps of a script. -/
def play (j : Json) : Json :=
  match ofScript? j with
  | some scene => .array (scene.steps (list j "steps"))
  | none => .ofMembers [("error", .text "Panic")]

end Scene
end Quire.Rehearsal
