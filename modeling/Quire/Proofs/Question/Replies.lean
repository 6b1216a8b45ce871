import Quire.Proofs.Question.Entries
import Quire.Proofs.Text.Cut

/-! Questions in the replies of a model.

A model writes questions as an array of objects, laid out in any way (`Question.Told`). Blanks around
the array, or a fence with blanks around it, go without a trace, as the array begins and ends with a
bracket, whatever its texts hold (`Chat.stripFences_bare`, `Chat.stripFences_fenced`). So every such
reply is read as the questions that it was written for. -/
namespace Quire

/-! ### Blanks -/

namespace Text
variable {first last : Char} {before inner after : List Char}

/-- Blanks and nothing else. -/
def Blanks (cs : List Char) : Prop := ∀ c ∈ cs, isBlank c = true

/-- Blanks around a text are trimmed, up to where the text begins and ends with something else. -/
theorem trim_padded (hbefore : Blanks before) (hfirst : isBlank first = false)
    (hlast : isBlank last = false) (hafter : Blanks after) :
    trim (String.ofList (before ++ first :: (inner ++ [last]) ++ after)) =
      String.ofList (first :: (inner ++ [last])) := by
  have hblank {cs : List Char} (h : Blanks cs) : isEmptyOrBlank (String.ofList cs) = true := by
    rw [isEmptyOrBlank, String.toList_ofList]
    exact List.all_eq_true.mpr h
  rw [String.ofList_append, String.ofList_append, trim_around (hblank hbefore) (hblank hafter),
    trim_of_ends hfirst hlast]

end Text

/-! ### Fences -/

namespace Chat
open Text (Blanks)
variable {before info inside within after : List Char}

theorem dropClosing_of_ne {c : Char} (h : c ≠ '`') (rest : List Char) :
    dropClosing (c :: rest) = c :: rest := by
  unfold dropClosing
  split
  · rename_i heq
    exact absurd (List.cons.inj heq).1 h
  · rfl

theorem dropInfo_line (hinfo : '\n' ∉ info) (rest : List Char) :
    dropInfo (info ++ '\n' :: rest) = rest := by
  have hline : ∀ c ∈ info, (c != '\n') = true := by
    rintro c hc
    exact bne_iff_ne.mpr fun h => hinfo (h ▸ hc)
  rw [dropInfo, List.dropWhile_append_of_pos hline, List.dropWhile_cons_of_neg (by simp)]

/-- A text in brackets with blanks behind it does not end with a backtick. -/
theorem reverse_bracketed (hafter : Blanks after) : ∃ c rest, c ≠ '`' ∧
    (before ++ '[' :: (inside ++ [']']) ++ after).reverse = c :: rest := by
  rcases List.eq_nil_or_concat after with rfl | ⟨front, c, rfl⟩
  · exact ⟨']', inside.reverse ++ '[' :: before.reverse, by decide, by simp⟩
  · refine ⟨c, (before ++ '[' :: (inside ++ [']']) ++ front).reverse, ?_, by simp⟩
    rintro rfl
    have hblank := hafter '`' (by simp)
    cases hblank

/-- So the fence behind it is all that is dropped from its end. -/
theorem dropClosing_bracketed (hafter : Blanks after) :
    (dropClosing (before ++ '[' :: (inside ++ [']']) ++ after ++ ['`', '`', '`']).reverse).reverse =
      before ++ '[' :: (inside ++ [']']) ++ after := by
  obtain ⟨c, rest, hc, hreverse⟩ := @reverse_bracketed before inside after hafter
  rw [List.reverse_append, hreverse]
  show (dropClosing (c :: rest)).reverse = _
  rw [dropClosing_of_ne hc, ← hreverse, List.reverse_reverse]

theorem dropStart?_fence (rest : List Char) :
    Text.dropStart? "```" (String.ofList ('`' :: '`' :: '`' :: rest)) = some (String.ofList rest) := by
  simp [Text.dropStart?, Text.afterStart?]

theorem stripFences_bare (hbefore : Blanks before) (hafter : Blanks after) :
    stripFences (String.ofList (before ++ '[' :: (inside ++ [']']) ++ after)) =
      String.ofList ('[' :: (inside ++ [']'])) := by
  rw [stripFences, Text.trim_padded hbefore rfl rfl hafter]
  have hbare : Text.dropStart? "```" (String.ofList ('[' :: (inside ++ [']']))) = none := by
    simp [Text.dropStart?, Text.afterStart?]
  rw [hbare]

/-- Of a fence among blanks what stands behind its first line is left, with its own end. -/
theorem stripFences_opened {lead trail : List Char} (hlead : Blanks lead) (hinfo : '\n' ∉ info)
    (htrail : Blanks trail) :
    stripFences (String.ofList (lead ++ '`' :: '`' :: '`' :: (info ++ '\n' ::
        (within ++ ['`', '`', '`'])) ++ trail)) =
      Text.trim (String.ofList (dropClosing (within ++ ['`', '`', '`']).reverse).reverse) := by
  have hends : '`' :: '`' :: '`' :: (info ++ '\n' :: (within ++ ['`', '`', '`'])) =
      '`' :: ('`' :: '`' :: (info ++ '\n' :: (within ++ ['`', '`'])) ++ ['`']) := by simp
  have hright : Text.trimRight (within ++ ['`', '`', '`']) = within ++ ['`', '`', '`'] := by
    have hend := @Text.trimRight_of_end '`' rfl (within ++ ['`', '`'])
    rwa [List.append_assoc] at hend
  rw [stripFences, hends, Text.trim_padded hlead rfl rfl htrail, ← hends, dropStart?_fence]
  dsimp only
  rw [String.toList_ofList, dropInfo_line hinfo, hright]

/-- What stands in a fence is taken out of it, whatever the line says that opens the fence. -/
theorem stripFences_fenced {lead trail : List Char} (hlead : Blanks lead) (hinfo : '\n' ∉ info)
    (hbefore : Blanks before) (hafter : Blanks after) (htrail : Blanks trail) :
    stripFences (String.ofList (lead ++ '`' :: '`' :: '`' :: (info ++ '\n' ::
        (before ++ '[' :: (inside ++ [']']) ++ after ++ ['`', '`', '`'])) ++ trail)) =
      String.ofList ('[' :: (inside ++ [']'])) := by
  rw [stripFences_opened hlead hinfo htrail, dropClosing_bracketed hafter,
    Text.trim_padded hbefore rfl rfl hafter]

end Chat

/-! ### Questions -/

namespace Question
open Json (Shape Record HasItems HasMembers)
open Text (Blanks)

/-- What a field says; it may be left out if that is nothing. -/
inductive Says (j : Json) (nothing : Prop) : Option Json → Prop
  | given : Says j nothing (some j)
  | left : nothing → Says j nothing none

/-- What stands under the names of the fields, in full. -/
structure Parts (q : Question) (members : String → Option Json) : Prop where
  text : Says (.text q.text) (q.text = "") (members "question_text")
  options : Says (.array (q.options.map .text)) (q.options = []) (members "options")
  answerKey : Says (.text q.answerKey) (q.answerKey = "") (members "answer_key")
  correctIndex : Says (.ofOption (fun i => .ofNat i.toNat) q.correctIndex)
    (q.correctIndex = none) (members "correct_index")

/-- The name in full of a field that models write in short. -/
def fullName (key : String) : String :=
  if key = "question" then "question_text"
  else if key = "answer" then "answer_key"
  else if key = "correctIndex" then "correct_index"
  else key

/-- An object that a question is written as: each field once, under either of its names, in any order,
and perhaps other members among them, if they are not nested too deep to be read. -/
def Told (q : Question) (j : Json) : Prop :=
  ∃ members, j = .object members ∧ (∀ m ∈ members, m.2.depth + 2 ≤ Json.depthLimit) ∧
    HasMembers q.Parts (.object (members.map fun m => (fullName m.1, m.2)))

/-- A question whose fields have no short names. -/
def fullRecord : Record Question :=
  Question.mk <$> .optional "question_text" .string "" <*>
    .optional "options" (.list .string) [] <*> .optional "answer_key" .string "" <*>
    .optional "correct_index" (.option .word32) none

theorem rename_eq {fields : List Json.Field} (h : fields.map Json.Field.names =
      [["question_text", "question"], ["options"], ["answer_key", "answer"],
        ["correct_index", "correctIndex"]]) (key : String) :
    Record.rename fields key = fullName key := by
  have hnames : Record.rename fields key = (((fields.map Json.Field.names).find?
      fun names => names.contains key).map fun names => names.headD "").getD key := by
    rw [List.find?_map, Option.map_map]
    rfl
  rw [hnames, h]
  by_cases hknown : key ∈ ["question_text", "question", "options", "answer_key", "answer",
    "correct_index", "correctIndex"]
  · simp only [List.mem_cons, List.not_mem_nil, or_false] at hknown
    rcases hknown with rfl | rfl | rfl | rfl | rfl | rfl | rfl <;> rfl
  · simp only [List.mem_cons, List.not_mem_nil, or_false, not_or] at hknown
    simp [fullName, hknown]

theorem shape_eq (origin : Json.Origin) (members : List (String × Json)) :
    shape origin (Json.toOutline (.object members)) = Record.shape "Question" fullRecord origin
      (Json.toOutline (.object (members.map fun m => (fullName m.1, m.2)))) := by
  refine (@Record.shape_rename origin Question _ fullRecord ?_ ?_ ?_ "Question" members).symm.trans ?_
  · exact ⟨by decide, by decide⟩
  · rfl
  · rfl
  · rw [List.map_congr_left fun m _ => by rw [rename_eq rfl]]

variable {q : Question} {members : String → Option Json} {origin : Json.Origin}

theorem Says.gives {α : Type} {name : String} {inner : Shape α} {j : Json} {a whenMissing : α}
    (h : Says j (a = whenMissing) (members name)) (hj : inner origin j.toOutline = .ok a) :
    (Record.optional name inner whenMissing).Gives origin members a := by
  generalize hstands : members name = stands at h
  cases h with
  | given => exact .given hstands hj
  | left hnothing => exact hnothing ▸ .missing hstands

theorem Parts.gives (h : q.Parts members) : fullRecord.Gives origin members q := by
  obtain ⟨text, options, answerKey, correctIndex⟩ := q
  obtain ⟨htext, hoptions, hanswer, hindex⟩ := h
  refine (((Record.Gives.map (htext.gives rfl) Question.mk).seq (hoptions.gives ?_)).seq
    (hanswer.gives rfl)).seq (hindex.gives ?_)
  · exact Shape.list_outlines fun _ _ => rfl
  · cases correctIndex with
    | none => rfl
    | some i =>
      show (Shape.word32 origin (.number (some (.integer i.toNat))) >>= fun a => pure (some a)) = _
      rw [Shape.word32_ofNat]
      rfl

theorem reads_told : shape.Reads Told where
  read := by
    rintro q _ ⟨members, rfl, -, members', hmembers, hnodup, hparts⟩ origin
    obtain rfl := Json.object.inj hmembers
    rw [shape_eq]
    exact Record.shape_object "Question" ⟨rfl, by decide⟩ hnodup hparts.gives
  something := by
    rintro q _ ⟨members, rfl, -⟩
    exact Json.noConfusion

/-- A question as it is stored is told in full, without the fields that say nothing. -/
theorem told_toJson (q : Question) : Told q q.toJson := by
  obtain ⟨text, options, answerKey, correctIndex⟩ := q
  refine ⟨_, toJson_eq _, ?_, _, rfl, ?_, ?_⟩
  · cases options <;> cases correctIndex <;> simp [members, Json.depth, Json.itemsDepth, Json.ofNat,
      Json.itemsDepth_texts, Json.depthLimit]
  · cases options <;> cases correctIndex <;> simp [members, fullName]
  · cases options with
    | nil =>
      cases correctIndex with
      | none => exact ⟨.given, .left rfl, .given, .left rfl⟩
      | some i => exact ⟨.given, .left rfl, .given, .given⟩
    | cons o os =>
      cases correctIndex with
      | none => exact ⟨.given, .given, .given, .left rfl⟩
      | some i => exact ⟨.given, .given, .given, .given⟩

theorem fits_toJson (q : Question) : q.toJson.Fits := by
  have htexts : ∀ texts : List String, Json.ItemsFit (texts.map .text) :=
    Json.itemsFit_map fun _ => trivial
  have hindex (i : UInt32) : (Json.ofNat i.toNat).Fits := by
    have hword := i.toNat_lt
    show -0x8000000000000000 ≤ (i.toNat : Int) ∧ (i.toNat : Int) ≤ Json.maxWord
    unfold Json.maxWord
    omega
  obtain ⟨text, options, answerKey, correctIndex⟩ := q
  rw [toJson_eq]
  cases options <;> cases correctIndex <;>
    simp [members, Json.Fits, Json.MembersFit, Json.ItemsFit, htexts, hindex]

/-- There is a layout of every list of questions: what is printed of them as they are stored. -/
theorem exists_layout (qs : List Question) : ∃ j text, HasItems Told qs j ∧ j.Laid text := by
  have hitems : List.Forall₂ Told qs (qs.map toJson) := by
    rw [List.forall₂_map_right_iff, List.forall₂_same]
    exact fun q _ => told_toJson q
  exact ⟨_, _, ⟨_, rfl, hitems⟩,
    Json.laid_compact (.array (qs.map toJson)) (Json.itemsFit_map fits_toJson qs)⟩

/-! ### Replies -/

theorem Told.depth_lt {j : Json} (h : Told q j) : j.depth < Json.depthLimit := by
  obtain ⟨members, rfl, hdepth, -⟩ := h
  have hmembers : Json.membersDepth members ≤ Json.depthLimit - 2 :=
    Json.membersDepth_le fun m hm => Nat.le_sub_of_add_le (hdepth m hm)
  show Json.membersDepth members + 1 < Json.depthLimit
  unfold Json.depthLimit at hmembers ⊢
  omega

theorem depth_le_of_told {qs : List Question} {j : Json} (h : HasItems Told qs j) :
    j.depth ≤ Json.depthLimit := by
  obtain ⟨items, rfl, hitems⟩ := h
  refine Nat.succ_le_of_lt (Nat.lt_of_le_of_lt (Json.itemsDepth_le (n := Json.depthLimit - 1) ?_)
    (by decide))
  induction hitems with
  | nil => exact nofun
  | cons hj _ ih =>
    intro k hk
    rcases List.mem_cons.mp hk with rfl | hk
    · exact Nat.le_sub_one_of_lt hj.depth_lt
    · exact ih k hk

/-- An array of questions that is written in any layout, read with nothing around it. -/
theorem readText_told {qs : List Question} {j : Json} {text : String} (hj : HasItems Told qs j)
    (htext : j.Laid text.toList) : Json.readText (Shape.list shape) text = .ok qs := by
  rw [Json.readText_laid _ htext (depth_le_of_told hj)]
  exact reads_told.list.read hj .text

theorem parseReply_of_strip {qs : List Question} {j : Json} {reply : String} {text : List Char}
    (hj : HasItems Told qs j) (htext : j.Laid text)
    (hstrip : Chat.stripFences reply = String.ofList text) : parseReply reply = .ok qs := by
  have hread : Json.readText (Shape.list shape) (String.ofList text) = .ok qs :=
    readText_told hj (String.toList_ofList.symm ▸ htext)
  unfold parseReply
  rw [hstrip, hread]

/-- Questions are read back from a reply that is an array of them, in any layout, among blanks; and
from one in which such an array stands in a fence, with any information on the line that opens it. -/
theorem parseReply_wrapped (qs : List Question) {before after : List Char} (hbefore : Blanks before)
    (hafter : Blanks after) :
    (∃ j text, HasItems Told qs j ∧ j.Laid text) ∧
    ∀ j text, HasItems Told qs j → j.Laid text →
      parseReply (String.ofList (before ++ text ++ after)) = .ok qs ∧
      ∀ lead info trail, Blanks lead → '\n' ∉ info → Blanks trail →
        parseReply (String.ofList (lead ++ '`' :: '`' :: '`' :: (info ++ '\n' ::
          (before ++ text ++ after ++ ['`', '`', '`'])) ++ trail)) = .ok qs := by
  refine ⟨exists_layout qs, fun j text hj htext => ?_⟩
  obtain ⟨inside, rfl⟩ : ∃ inside, text = '[' :: (inside ++ [']']) := by
    obtain ⟨items, rfl, -⟩ := hj
    cases htext with
    | array _ => exact ⟨_, rfl⟩
  exact ⟨parseReply_of_strip hj htext (Chat.stripFences_bare hbefore hafter),
    fun lead info trail hlead hinfo htrail => parseReply_of_strip hj htext
      (Chat.stripFences_fenced hlead hinfo hbefore hafter htrail)⟩

/-- A question about fences, which stand in its texts. -/
def fences : Question :=
  ⟨"What ends\n```json\n[\"a\"]```?", ["`", "``", "```"], "```", some 2⟩

/-- The question under short names, with a remark among them. -/
def short : Json := .object
  [("answer", .text fences.answerKey), ("correctIndex", .ofNat 2), ("note", .array [.null]),
    ("options", .array [.text "`", .text "``", .text "```"]), ("question", .text fences.text)]

theorem parseReply_wrapped_fences :
    let reply := '[' :: ((['\n'] ++ short.compact.toList ++ [' ', '\t']) ++ [']'])
    parseReply (String.ofList ([' '] ++ reply ++ ['\n', Char.ofNat 0xA0])) = .ok [fences] ∧
    parseReply (String.ofList (['\n'] ++ '`' :: '`' :: '`' :: ("json `".toList ++ '\n' ::
      ([' '] ++ reply ++ ['\n', Char.ofNat 0xA0] ++ ['`', '`', '`'])) ++ ['\n'])) =
        .ok [fences] := by
  have htold : HasItems Told [fences] (.array [short]) :=
    ⟨_, rfl, .cons ⟨_, rfl, by decide, _, rfl, by decide, .given, .given, .given, .given⟩ .nil⟩
  have hfits : short.Fits := ⟨trivial, ⟨by decide, by decide⟩, ⟨trivial, trivial⟩,
    ⟨trivial, trivial, trivial, trivial⟩, trivial, trivial⟩
  have hitems : Json.ItemsLaid [short] (['\n'] ++ short.compact.toList ++ [' ', '\t']) :=
    .last (by simp [Json.Gap]) (Json.laid_compact short hfits) (by simp [Json.Gap])
  have hblank : Blanks [' '] ∧ Blanks ['\n', Char.ofNat 0xA0] ∧ Blanks ['\n'] := by
    simp [Blanks, Text.isBlank]
  obtain ⟨-, hall⟩ := parseReply_wrapped [fences] hblank.1 hblank.2.1
  obtain ⟨hbare, hfenced⟩ := hall _ _ htold (.array hitems)
  exact ⟨hbare, hfenced _ _ _ hblank.2.2 (by decide) hblank.2.2⟩

end Question
end Quire
