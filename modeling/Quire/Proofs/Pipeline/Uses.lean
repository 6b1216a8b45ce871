import Quire.Proofs.Pipeline.Answers

/-! What recognition and the temporary objects are used for.

A file is sent in one of three ways: a copy of it is stored, an operation is started on a copy, or
it is recognized at once. Whatever else recognition and the temporary objects are asked for follows
an operation, or the end of one. Surroundings in which all of this is noted (`Use.noting`) tell what
an ingestion has used, whatever they answer; an ingestion never has more than so many bytes
recognized at once (`Pipeline.recognizes_small`). -/
namespace Quire
open Txn
variable {α ε ε' : Type}

/-! ### Uses -/

/-- A use of recognition or of the temporary objects, with what came of it. -/
inductive Use
  | stored (key : String) (body : ByteStream) (mime : String) (answer : Except StorageError Unit)
  | submitted (inputUri mime outputUri : String) (answer : Except OcrError String)
  | recognized (content : ByteArray) (mime : String) (answer : Except OcrError String)
  /-- No file is sent. -/
  | followed

namespace Use

/-- What a question is a use of. -/
def of : {β : Type} → Effect β → β → List Use
  | _, .put key body mime, answer => [.stored key body mime answer]
  | _, .submit inputUri mime outputUri, answer => [.submitted inputUri mime outputUri answer]
  | _, .recognize content mime, answer => [.recognized content mime answer]
  | _, .list _, _ => [.followed]
  | _, .get _, _ => [.followed]
  | _, .delete _, _ => [.followed]
  | _, .status _, _ => [.followed]
  | _, _, _ => []

/-- Without a file being sent, nothing but what follows is used. -/
theorem eq_followed_of {β : Type} {e : Effect β} (he : e.isSending = false) {b : β} {use : Use}
    (h : use ∈ of e b) : use = .followed := by
  cases e <;> first
    | exact List.mem_singleton.mp h
    | exact absurd h List.not_mem_nil
    | cases he

/-- Some answers may be given, and every use is noted. -/
def noting (gives : {β : Type} → Effect β → β → Prop) : Surroundings (List Use) where
  allows e uses answer uses' := gives e answer ∧ uses' = uses ++ of e answer

section
variable {gives : {β : Type} → Effect β → β → Prop}

theorem noting_live (h : ∀ {β : Type} (e : Effect β), ∃ b, gives e b) : (noting gives).Live := by
  refine Surroundings.Live.of_allows fun op uses => ?_
  obtain ⟨b, hb⟩ := h op
  exact ⟨b, uses ++ of op b, hb, rfl⟩

theorem ignores {e : Effect α} (he : ∀ b, of e b = []) : (noting gives).Ignores e := by
  intro uses b uses' h
  rw [h.2, he b, List.append_nil]

/-- Among such surroundings, with nobody else. -/
abbrev alone (gives : {β : Type} → Effect β → β → Prop) : Company (List Use) := .alone (noting gives)

variable {a : Attempt} {uses : List Use}

/-- A question is answered as it may be, and noted. -/
theorem ask_here {e : Effect α} (he : e.isTransaction = false) {E : ε → Moment (List Use) → Prop} :
    (Run.perform e : Run ε α).Amid (alone gives) (a.Here uses)
      (fun b m => gives e b ∧ a.Here (uses ++ of e b) m) E := by
  refine .ask (Company.alone_stable _) he fun m b x hm hb => ⟨trivial, hb.1, hm.1, ?_⟩
  show x = _
  rw [hb.2, hm.2]

theorem demand_here [Widen ε ε'] {e : Effect (Except ε α)} (he : e.isTransaction = false) :
    (Run.request e : Run ε' α).Amid (alone gives) (a.Here uses)
      (fun b m => gives e (.ok b) ∧ a.Here (uses ++ of e (.ok b)) m)
      fun fault m => ∃ e', fault = Widen.widen e' ∧ gives e (.error e') ∧
        a.Here (uses ++ of e (.error e')) m := by
  refine .demand (Company.alone_stable _) he fun m o x hm ho => ⟨trivial, ?_⟩
  have hx : x = uses ++ of e o := by rw [ho.2, hm.2]
  cases o with
  | ok b => exact ⟨ho.1, hm.1, hx⟩
  | error e' => exact ⟨e', rfl, ho.1, hm.1, hx⟩

end

/-- Nothing larger was recognized at once. -/
def Small (limit : Nat) (uses : List Use) : Prop :=
  ∀ content mime answer, recognized content mime answer ∈ uses → content.size ≤ limit

theorem Small.append {limit : Nat} {uses uses' : List Use} (h : Small limit uses)
    (h' : Small limit uses') : Small limit (uses ++ uses') := fun content mime answer hmem =>
  (List.mem_append.mp hmem).elim (h content mime answer) (h' content mime answer)

end Use

/-! ### Recognition at once -/

/-- A dialogue in which only small files are recognized at once. -/
def Dialogue.recognizing (limit : Nat) : Dialogue where
  issues _ _ _ := True
  asks
    | .recognize content _ => content.size ≤ limit
    | _ => True
  gives _ _ := True

theorem Use.small_of {limit : Nat} {β : Type} {e : Effect β} (he : (Dialogue.recognizing limit).asks e)
    (b : β) : Small limit (of e b) := by
  intro content mime answer hmem
  cases e <;> first
    | exact absurd hmem List.not_mem_nil
    | cases List.mem_singleton.mp hmem <;> exact he

theorem Dialogue.ingests_recognizing (limit : Nat) : (recognizing limit).Ingests limit where
  others β e he := by cases e <;> trivial
  recognizes _ _ h := h

namespace Pipeline

theorem checked_recognizing (limit : Nat) (job : Job) : Checked (.recognizing limit) job where
  watches := ⟨⟨trivial, fun _ _ _ => trivial, fun _ _ => trivial⟩, fun _ => trivial, fun _ => trivial⟩
  checks := .of_harmless (fun _ => trivial) (fun _ _ _ => trivial) fun _ _ _ _ _ => trivial
  handles _ _ := ⟨trivial, trivial, fun _ _ _ _ => ⟨trivial, trivial⟩⟩

/-- Not more than so many bytes are recognized at once, however large the upload is said to be and
whatever is read of it. -/
theorem recognizes_small (p : Pipeline) (documentId ownerId : String) :
    (p.ingest documentId ownerId).Abides (.recognizing p.settings.syncSizeLimit) fun _ => True := by
  refine p.ingest_abides (Q := fun _ => True) (Dialogue.ingests_recognizing _)
    (fun id now => .issue trivial) (fun _ _ => ?_) fun locked _ => ?_
  · exact ⟨fun _ => trivial, fun _ _ _ _ _ => trivial, fun _ _ _ _ _ => trivial,
      fun _ _ _ _ => trivial, fun _ _ _ => trivial, fun _ _ => trivial⟩
  · refine p.wait_abides (Q := fun _ => True) ?_ fun job _ => checked_recognizing _ job
    refine Run.Abides.bind (.issue trivial) fun found _ => ?_
    cases found with
    | none => exact .throw _
    | some job => exact .pure trivial

/-- So it is noted. -/
theorem uses_small (p : Pipeline) (documentId ownerId : String)
    (gives : {β : Type} → Effect β → β → Prop) :
    (p.ingest documentId ownerId).Amid (Use.alone gives)
      (fun m => Use.Small p.settings.syncSizeLimit m.2)
      (fun _ m => Use.Small p.settings.syncSizeLimit m.2)
      fun _ m => Use.Small p.settings.syncSizeLimit m.2 := by
  refine (Run.Amid.of_abides (p.recognizes_small documentId ownerId) (Company.alone_stable _)
    (fun _ _ => trivial) (fun e m b uses he hm hb => ⟨trivial, ?_⟩)
    (fun {_ _} t _ s uses hm => wp_mono (wp_trivial t s) (fun _ _ _ => ⟨trivial, hm⟩) fun _ h => h)).conseq
    (fun _ hm => hm) (fun _ _ hm => hm.2) fun _ _ hm => hm
  rw [show uses = m.2 ++ Use.of e b from hb.2]
  exact hm.append (Use.small_of he b)

end Pipeline

/-! ### Uploads -/

namespace Upload

/-- The upload has a content, of which `reading` takes the text that it holds by itself. Everything
else may be answered by anything. -/
def Offers (content : ByteArray) (reading : ByteArray → Except ProcessError (List String)) :
    {β : Type} → Effect β → β → Prop
  | _, .reference _ _, answer => ∃ r, answer = .ok r ∧ r.size = content.size
  | _, .openUpload _, answer => ∃ stream, answer = .ok stream ∧ stream.collect = .ok content
  | _, .extract c, answer => answer = reading c
  | _, _, _ => True

variable {content : ByteArray} {reading : ByteArray → Except ProcessError (List String)}

theorem exists_offers {β : Type} (e : Effect β) : ∃ b, Offers content reading e b := by
  obtain ⟨b⟩ := e.nonempty
  cases e with
  | reference path ttl => exact ⟨.ok ⟨path, content.size, ⟨0, 0⟩⟩, _, rfl, rfl⟩
  | openUpload r => exact ⟨.ok (.ofBytes content), _, rfl, congrArg Except.ok ByteArray.empty_append⟩
  | extract c => exact ⟨_, rfl⟩
  | _ => exact ⟨b, trivial⟩

end Upload

namespace Pipeline
variable {content : ByteArray} {reading : ByteArray → Except ProcessError (List String)}
  {a : Attempt} {uses : List Use}

/-- An upload within the limit is read as it is. -/
theorem readUpload_offered {r : Upload.Reference} (hsize : r.size = content.size) {limit : Nat}
    (hlimit : content.size ≤ limit) {E : PipelineError → Moment (List Use) → Prop} :
    (readUpload r limit).Amid (Use.alone (Upload.Offers content reading)) (a.Here uses)
      (fun c m => c = content ∧ a.Here uses m) E := by
  have hread : Run.Amid (ε := PipelineError) (Use.alone (Upload.Offers content reading))
      (a.Here uses) (fun o m => o = .ok content ∧ a.Here uses m) E
      (ExceptT.lift (Upload.readAll (Program.perform (.openUpload r)) r limit)) := by
    refine Run.Amid.iff_leads.mpr fun m hm => (Run.Leads.lift _).mpr ?_
    unfold Upload.readAll
    rw [if_neg (Nat.not_lt.mpr (hsize ▸ hlimit))]
    refine (Flow.Leads.bind _ _).mpr fun m₁ hm₁ o n ho => ⟨trivial, ?_⟩
    obtain ⟨hstore, ⟨stream, rfl, hcollect⟩, huses⟩ := ho
    obtain rfl : m₁ = m := hm₁
    exact ⟨Upload.gather_of_collectFrom hcollect hlimit, hstore ▸ hm.1, by
      rw [huses, hm.2]
      exact List.append_nil uses⟩
  refine hread.bind fun o => .given fun ho => ?_
  rw [ho]
  exact .pure fun _ hm => ⟨rfl, hm⟩

end Pipeline
end Quire
