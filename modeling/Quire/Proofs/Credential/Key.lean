import Quire.Credential.Key
import Quire.Proofs.Json.Objects
import Quire.Proofs.Text.Base64

/-! Keys in secrets.

A secret stands for a document: for itself if it is a JSON object, and otherwise for the text that it
encodes (`jsonText_eq_ok_iff`). Blanks around it do not count, and no encoded text is an object, so it
makes no difference which of its forms a key is given in (`ofSecret_either_way`). -/
namespace Quire.Credential.ServiceAccountKey
open Json (Record HasMembers)
open Text (trim startsWith isEmptyOrBlank)

/-! ### The document of a secret -/

theorem jsonText_of_trim {secret j : String} (htrim : trim secret = j)
    (hopen : startsWith "\x7b" j = true) : jsonText secret = .ok j := by
  unfold jsonText
  rw [htrim]
  exact if_pos hopen

/-- What is not a JSON object stands for the text that it encodes. -/
theorem jsonText_eq_ok_iff {secret text : String} (hopen : startsWith "\x7b" (trim secret) = false) :
    jsonText secret = .ok text ↔ trim secret = Text.Base64.encode text.toUTF8 := by
  rw [← Text.Base64.decode?_eq_some_iff]
  unfold jsonText
  dsimp only
  rw [hopen, if_neg Bool.false_ne_true]
  cases hbytes : Text.Base64.decode? (trim secret) with
  | none => simp
  | some bytes =>
    rw [Option.some.injEq, ← Text.decode?_eq_some_iff]
    cases htext : Text.decode? bytes <;> simp [htext]

/-- The failures all say that the key is not valid. -/
theorem jsonText_eq_error {secret : String} {e : AuthError} (h : jsonText secret = .error e) :
    ∃ reason, e = .invalidKey reason := by
  unfold jsonText at h
  dsimp only at h
  split at h
  · cases h
  · split at h
    · exact ⟨_, (Except.error.inj h).symm⟩
    · split at h
      · exact ⟨_, (Except.error.inj h).symm⟩
      · cases h

/-- A secret is read by the document that it stands for. -/
theorem ofSecret_congr {secret secret' : String} (h : jsonText secret = jsonText secret') :
    ofSecret secret = ofSecret secret' := by
  unfold ofSecret
  rw [h]

/-- An encoded object stands for the object. -/
theorem jsonText_of_encoded {secret j : String} (htrim : trim secret = Text.Base64.encode j.toUTF8) :
    jsonText secret = .ok j := by
  refine (jsonText_eq_ok_iff ?_).mpr htrim
  rw [htrim]
  exact Text.Base64.startsWith_encode _

theorem refused {secret : String} (hopen : startsWith "\x7b" (trim secret) = false)
    (hother : ∀ text : String, trim secret ≠ Text.Base64.encode text.toUTF8) :
    ∃ reason, ofSecret secret = .error (.invalidKey reason) := by
  cases hjson : jsonText secret with
  | ok text => exact absurd ((jsonText_eq_ok_iff hopen).mp hjson) (hother text)
  | error e =>
    obtain ⟨reason, rfl⟩ := jsonText_eq_error hjson
    refine ⟨reason, ?_⟩
    unfold ofSecret
    rw [hjson]
    rfl

/-! ### Keys -/

/-- What stands in the document of a key. -/
structure Parts (key : ServiceAccountKey) (members : String → Option Json) : Prop where
  clientEmail : members "client_email" = some (.text key.clientEmail)
  privateKey : members "private_key" = some (.text key.privateKey)
  tokenUri : members "token_uri" = some (.text key.tokenUri) ∨
    members "token_uri" = none ∧ key.tokenUri = defaultTokenUri

theorem reads_parts : shape.Reads fun key => HasMembers key.Parts := by
  refine Record.reads_object "ServiceAccountKey" ⟨rfl, by decide⟩ ?_
  intro key members h origin
  obtain ⟨clientEmail, privateKey, tokenUri⟩ := key
  refine (((Record.Gives.given h.clientEmail rfl).map _).seq (.given h.privateKey rfl)).seq ?_
  rcases h.tokenUri with hgiven | ⟨hmissing, rfl⟩
  · exact .given hgiven rfl
  · exact .missing hmissing

/-- An object is laid out between its brackets, which are no blanks. -/
theorem bracketed_of_laid {members : List (String × Json)} {text : String}
    (h : (Json.object members).Laid text.toList) :
    startsWith "\x7b" text = true ∧ trim text = text := by
  obtain ⟨inner, hinner⟩ : ∃ inner, text.toList = '{' :: (inner ++ ['}']) := by
    cases htext : text.toList with
    | nil => rw [htext] at h; cases h
    | cons c cs =>
      rw [htext] at h
      cases h
      exact ⟨_, rfl⟩
  obtain rfl : text = String.ofList ('{' :: (inner ++ ['}'])) := by rw [← hinner, String.ofList_toList]
  exact ⟨Text.startsWith_iff.mpr ⟨inner ++ ['}'], hinner.symm⟩, Text.trim_of_ends rfl rfl⟩

/-- The document of a key, in any layout, is read as the key. -/
theorem ofSecret_document {key : ServiceAccountKey} {j : Json} {text : String}
    (hj : HasMembers key.Parts j) (htext : j.Laid text.toList) (hdepth : j.depth ≤ Json.depthLimit)
    (hemail : key.clientEmail ≠ "") (hkey : key.privateKey ≠ "") : ofSecret text = .ok key := by
  have hread : Json.readText shape text = .ok key := by
    rw [Json.readText_laid shape htext hdepth]
    exact reads_parts.read hj .text
  have hjson : jsonText text = .ok text := by
    obtain ⟨members, rfl, -⟩ := hj
    obtain ⟨hopen, hbare⟩ := bracketed_of_laid htext
    exact jsonText_of_trim hbare hopen
  unfold ofSecret
  rw [hjson]
  simp [bind, Except.bind, hread, hemail, hkey]

/-- A secret that is a JSON object, or the base64 text of one, is read as the object is, whatever blanks
stand around it; so the key that the object holds is found either way. What is neither an object nor the
base64 text of some text is refused. -/
theorem ofSecret_either_way :
    (∀ j before after : String, startsWith "\x7b" j = true → trim j = j →
      isEmptyOrBlank before = true → isEmptyOrBlank after = true →
      ofSecret (before ++ j ++ after) = ofSecret j ∧
      ofSecret (before ++ Text.Base64.encode j.toUTF8 ++ after) = ofSecret j) ∧
    (∀ key json text, HasMembers key.Parts json → json.Laid text.toList →
      json.depth ≤ Json.depthLimit → key.clientEmail ≠ "" → key.privateKey ≠ "" →
      startsWith "\x7b" text = true ∧ trim text = text ∧ ofSecret text = .ok key) ∧
    ∀ secret, startsWith "\x7b" (trim secret) = false →
      (∀ text : String, trim secret ≠ Text.Base64.encode text.toUTF8) →
      ∃ reason, ofSecret secret = .error (.invalidKey reason) := by
  refine ⟨fun j before after hopen hbare hbefore hafter => ?_, ?_, fun _ => refused⟩
  · have hplain : jsonText j = .ok j := jsonText_of_trim hbare hopen
    constructor
    · refine ofSecret_congr (Eq.trans ?_ hplain.symm)
      exact jsonText_of_trim ((Text.trim_around hbefore hafter j).trans hbare) hopen
    · refine ofSecret_congr (Eq.trans ?_ hplain.symm)
      refine jsonText_of_encoded ?_
      rw [Text.trim_around hbefore hafter, Text.Base64.trim_encode]
  · intro key json text hjson htext hdepth hemail hkey
    have hread := ofSecret_document hjson htext hdepth hemail hkey
    obtain ⟨members, rfl, -⟩ := hjson
    exact ⟨(bracketed_of_laid htext).1, (bracketed_of_laid htext).2, hread⟩

/-- A key is found in an object with blanks around it, and in the same object encoded; base64 without its
padding is refused. -/
theorem ofSecret_either_way_accented :
    ofSecret (" " ++ (Json.object [("client_email", .text "é@a"), ("private_key", .text "k")]).compact ++
      "\n") = .ok ⟨"é@a", "k", defaultTokenUri⟩ ∧
    ofSecret ("\t" ++ Text.Base64.encode (Json.object [("client_email", .text "é@a"),
      ("private_key", .text "k")]).compact.toUTF8 ++ " ") = .ok ⟨"é@a", "k", defaultTokenUri⟩ ∧
    ∃ reason, ofSecret "e30" = .error (.invalidKey reason) := by
  obtain ⟨hforms, hdocument, hrefused⟩ := ofSecret_either_way
  obtain ⟨hopen, hbare, hkey⟩ := hdocument ⟨"é@a", "k", defaultTokenUri⟩
    (.object [("client_email", .text "é@a"), ("private_key", .text "k")]) _
    ⟨_, rfl, by decide, rfl, rfl, .inr ⟨rfl, rfl⟩⟩ (Json.laid_compact _ ⟨trivial, trivial, trivial⟩)
    (Nat.le_of_ble_eq_true rfl) (by decide) (by decide)
  refine ⟨?_, ?_, hrefused "e30" (by decide) fun text htext => ?_⟩
  · rw [(hforms _ " " "\n" hopen hbare (by decide) (by decide)).1, hkey]
  · rw [(hforms _ "\t" " " hopen hbare (by decide) (by decide)).2, hkey]
  · have hread := Text.Base64.decode?_eq_some_iff.mpr htext
    cases hread

end Quire.Credential.ServiceAccountKey
