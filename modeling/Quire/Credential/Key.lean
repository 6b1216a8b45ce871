import Quire.Json.Shape
import Quire.Text.Base64
import Quire.Text.Cut
import Quire.Failure.Provider

/-! Keys of service accounts.

A key is a JSON object, given as it is or in base64. -/
namespace Quire.Credential
open Json (Shape Record)

structure ServiceAccountKey where
  clientEmail : String
  privateKey : String
  tokenUri : String
  deriving DecidableEq, Repr

namespace ServiceAccountKey

def defaultTokenUri : String := "https://oauth2.googleapis.com/token"

def shape : Shape ServiceAccountKey :=
  Record.shape "ServiceAccountKey" <|
    ServiceAccountKey.mk <$> .required "client_email" .string <*>
      .required "private_key" .string <*> .optional "token_uri" .string defaultTokenUri

/-- The JSON text that a secret stands for. -/
def jsonText (secret : String) : Except AuthError String :=
  let raw := Text.trim secret
  if Text.startsWith "\x7b" raw then .ok raw
  else match Text.Base64.decode? raw with
    | none => .error (.invalidKey ("not JSON and not base64: " ++ detail))
    | some bytes =>
      match Text.decode? bytes with
      | none => .error (.invalidKey "decoded key is not UTF-8")
      | some text => .ok text

/-- The key that a secret holds. -/
def ofSecret (secret : String) : Except AuthError ServiceAccountKey := do
  let text ← jsonText secret
  match Json.readText shape text with
  | .error fault => .error (.invalidKey ("unexpected key JSON: " ++ fault.message))
  | .ok key =>
    if key.clientEmail == "" || key.privateKey == "" then
      .error (.invalidKey "client_email and private_key are required")
    else .ok key

/-- The key as it is shown to a developer, without what is secret. -/
def outline (key : ServiceAccountKey) : String :=
  "ServiceAccountKey \x7b client_email: " ++ Text.quoted key.clientEmail ++ ", token_uri: " ++
    Text.quoted key.tokenUri ++ ", .. \x7d"

end ServiceAccountKey
end Quire.Credential
