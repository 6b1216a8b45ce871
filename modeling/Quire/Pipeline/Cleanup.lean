import Quire.Pipeline.Basic
import Quire.Ocr.Shard
import Quire.Store.Pages
import Quire.Pool

/-! Cleaning recognized pages.

Several pages are cleaned at a time. A page that cannot be cleaned keeps its raw text and a mark,
so cleaning never fails as a whole. -/
namespace Quire

/-- A recognized page with its raw text as its clean one. -/
def Ocr.Page.asFound (page : Ocr.Page) : NewPage := .uncleaned page.number page.text .ocr

namespace Cleanup

/-- A page that could not be cleaned. -/
def unclean (page : Ocr.Page) : NewPage := { page.asFound with cleaningFailed := true }

/-- A page with what the cleaner has made of it. -/
def cleaned (name : CleanerName) (page : Ocr.Page) (c : Cleaning.CleanedText) : NewPage :=
  { page.asFound with
    cleanText := c.text
    cleaningModel := some name.model
    cleaningVersion := some name.version
    changesSummary := c.summary }

/-- A flow that counts the pages that are finished. -/
abbrev Counted : Type → Type 1 := StateT Nat Flow

/-- Asks something while counting. -/
def ask (e : Effect α) : Counted α := StateT.lift (Program.perform e)

/-- One page more is finished. That this cannot be recorded does not matter. -/
def finished (jobId : String) (total : Nat) : Counted Unit := do
  modify (· + 1)
  let done := UInt32.ofNat (← get)
  let _ ← StateT.lift (Ledger.updateProgress jobId done (UInt32.ofNat total) "cleaning").run

/-- The page of an index, which is there. -/
def pageAt (pages : List Ocr.Page) (i : Nat) : Ocr.Page := pages[i]?.getD default

/-- Begins to clean a page. A short one is finished at once. -/
def begin (s : Settings) (name : CleanerName) (jobId : String) (total i : Nat)
    (page : Ocr.Page) : Counted (Option (Except CleaningError NewPage)) := do
  if Cleaning.isTooShort page.text s.cleaningMinLength then
    finished jobId total
    return some (.ok page.asFound)
  match ← ask (.beginCleaning i page.text s.languageHint) with
  | none => return none
  | some r =>
    finished jobId total
    return some (r.map (cleaned name page))

/-- Waits until one of the pages in flight is clean. -/
def await (name : CleanerName) (jobId : String) (pages : List Ocr.Page) (first : Nat)
    (others : List Nat) :
    Counted (Fin (others.length + 1) × Except CleaningError NewPage) := do
  let (place, r) ← ask (.awaitCleaning first others)
  finished jobId pages.length
  return (place, r.map (cleaned name (pageAt pages ((first :: others).get place))))

/-- Pages cleaned by a cleaner. -/
def clean (s : Settings) (name : CleanerName) (jobId : String) (pages : List Ocr.Page) :
    Flow (List NewPage) := do
  let service : Service Counted Ocr.Page CleaningError NewPage :=
    ⟨begin s name jobId pages.length, await name jobId pages⟩
  let (result, _) ← ((Pool.ofNat s.cleaningConcurrency).mapOrElse service
    (fun page _ => unclean page) pages).run 0
  return result

end Cleanup

/-- Recognized pages as they will be stored: cleaned, if there is a cleaner and it is wanted. -/
def Pipeline.cleanPages (p : Pipeline) (jobId : String) (pages : List Ocr.Page) :
    Flow (List NewPage) :=
  match p.cleaner with
  | some name =>
    if p.settings.cleaningEnabled then Cleanup.clean p.settings name jobId pages
    else pure (pages.map (·.asFound))
  | none => pure (pages.map (·.asFound))

end Quire
