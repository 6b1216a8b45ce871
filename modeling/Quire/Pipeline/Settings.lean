import Quire.Config.Load

/-! The settings that the pipeline works by. -/
namespace Quire

structure Settings where
  nativeTextThreshold : Nat
  /-- The largest upload that is read for its own text. -/
  nativeSizeLimit : Nat
  /-- A larger file, and every paginated one, is recognized in the background. -/
  syncSizeLimit : Nat
  referenceTtl : Span
  /-- How many pages are stored in one transaction. -/
  pageInsertBatch : Nat
  cleaningEnabled : Bool
  cleaningConcurrency : Nat
  /-- A page of at most so many characters keeps its raw text. -/
  cleaningMinLength : Nat
  languageHint : Cleaning.LanguageHint
  /-- Milliseconds between two checks of an operation. -/
  pollIntervalMillis : Nat
  maxPollAttempts : UInt32
  polling : Polling
  deriving DecidableEq, Repr

namespace Settings

def standard : Settings where
  nativeTextThreshold := 50
  nativeSizeLimit := 50 * 1024 * 1024
  syncSizeLimit := 20 * 1024 * 1024
  referenceTtl := ⟨3600⟩
  pageInsertBatch := 10
  cleaningEnabled := true
  cleaningConcurrency := 3
  cleaningMinLength := 15
  languageHint := .az
  pollIntervalMillis := 10000
  maxPollAttempts := 90
  polling := .standard

/-- The settings of a configuration; none if a reference would be valid for too long. -/
def ofConfig? (c : Config) : Option Settings :=
  (Span.ofWord? c.ingest.referenceTtl).map fun ttl =>
    { nativeTextThreshold := c.ingest.nativeTextThreshold.toNat
      nativeSizeLimit := c.ingest.nativeSizeLimit.toNat
      syncSizeLimit := c.ocr.syncSizeLimit.toNat
      referenceTtl := ttl
      pageInsertBatch := c.ingest.pageInsertBatch.toNat
      cleaningEnabled := c.cleaning.enabled
      cleaningConcurrency := c.cleaning.concurrency.toNat
      cleaningMinLength := c.cleaning.minLength.toNat
      languageHint := c.cleaning.languageHint
      pollIntervalMillis := c.ocr.pollInterval.toNat * 1000
      maxPollAttempts := c.ocr.maxPollAttempts
      polling := c.ingest.polling }

end Settings
end Quire
