import Quire.Credential.Token
import Quire.NativeText
import Quire.Effect
import Quire.Ocr.Client
import Quire.Object.Client
import Quire.Cleaning.Client
import Quire.Question.Client
import Quire.Store.Database

/-! The services behind the pipeline, and how they answer what it asks.

The recognition service and the bucket share one cache of access tokens, which lives as long as
the session. -/
namespace Quire

/-! ### The machine -/

/-- What the pipeline needs of the machine that it runs on. -/
structure Machine (m : Type → Type) where
  clock : m Instant
  /-- An identifier that nobody has had before. -/
  freshId : m String
  wire : Http.Wire m
  /-- A signed assertion, if the private key is of use. -/
  sign : (privateKey : String) → Credential.Claims → m (Option String)
  /-- The contents whose text is known. -/
  known : NativeText.Known

namespace Machine
variable {m : Type → Type}

def signer (machine : Machine m) : Credential.Signer m := ⟨machine.clock, machine.sign⟩

end Machine

/-! ### The services -/

structure Services where
  /-- The key that tokens are exchanged for. -/
  key : Option Credential.ServiceAccountKey
  recognizer : Ocr.Client
  objects : Object.Client
  cleaner : Option Cleaning.Client
  generator : Option Question.Client
  /-- The files, and where in them the uploads are. -/
  environment : Environment Database
  uploadsRoot : String

/-- What changes while commands run. -/
structure Session where
  store : Store
  tokens : Credential.TokenCache

namespace Services
variable {m : Type → Type} [Monad m]

/-- The wire of the machine, within a session. -/
def wire (machine : Machine m) : Http.Wire (StateT Session m) where
  send request := StateT.lift (machine.wire.send request)
  pause millis := StateT.lift (machine.wire.pause millis)

/-- A token from the cache, or a new one. -/
def token (s : Services) (machine : Machine m) : StateT Session m (Except AuthError String) := do
  match s.key with
  | none => return .error .request
  | some key =>
    let session ← get
    let now ← StateT.lift machine.clock
    let exchange := Credential.exchange key machine.signer machine.wire
    let (answer, tokens) ← StateT.lift (session.tokens.get now exchange)
    set { session with tokens := tokens }
    return answer.getD (.error .request)

/-- A database among the uploads counts as one page of it. -/
def databaseSize (_ : Database) : Nat := 4096

def transact (t : Txn ε α) : StateT Session m (Except ε α) := do
  let session ← get
  let (r, store) := t.run session.store
  set { session with store := store }
  return r

def clean (s : Services) (machine : Machine m) (text : String) (hint : Cleaning.LanguageHint) :
    StateT Session m (Except CleaningError Cleaning.CleanedText) :=
  match s.cleaner with
  | some c => c.clean (wire machine) text hint
  | none => return .ok ⟨text, none⟩

def generate (s : Services) (machine : Machine m) (text : String) (p : QuestionParams) :
    StateT Session m (Except GenerationError (List Question)) :=
  match s.generator with
  | some c => c.generate (wire machine) text p
  | none => return .error (.llm .request)

/-- Everything that the pipeline asks. -/
def answer (s : Services) (machine : Machine m) : {β : Type} → Effect β → StateT Session m β
  | _, @Effect.transact _ _ _ t => transact t
  | _, .clock => StateT.lift machine.clock
  | _, .freshId => StateT.lift machine.freshId
  | _, .sleep millis => StateT.lift (machine.wire.pause millis)
  | _, .reference path ttl => do
    let now ← StateT.lift machine.clock
    return Upload.reference s.environment databaseSize s.uploadsRoot path ttl now
  | _, .openUpload r => do
    return Upload.openStream s.environment r (← StateT.lift machine.clock)
  | _, .put key body contentType =>
    s.objects.put (wire machine) (s.token machine) key body contentType
  | _, .list start => s.objects.list (wire machine) (s.token machine) start
  | _, .get key => s.objects.get (wire machine) (s.token machine) key
  | _, .delete key => s.objects.delete (wire machine) (s.token machine) key
  | _, .extract content => return NativeText.extract machine.known content
  | _, .recognize content mime =>
    s.recognizer.process (wire machine) (s.token machine) content mime
  | _, .submit inputUri mime outputUri =>
    s.recognizer.submit (wire machine) (s.token machine) inputUri mime outputUri
  | _, .status handle => s.recognizer.status (wire machine) (s.token machine) handle
  | _, .beginCleaning _ text hint => some <$> s.clean machine text hint
  | _, .awaitCleaning _ _ => return (0, .error (.llm .request))
  | _, .generate text p => s.generate machine text p

/-- A run within a session. -/
def run (s : Services) (machine : Machine m) (r : Run ε α) : StateT Session m (Except ε α) :=
  Program.run (s.answer machine) r.run

end Services

end Quire
