import Quire.Pipeline.Publish
import Quire.Proofs.Object.Depot
import Quire.Proofs.Pipeline.Lifecycle
import Quire.Proofs.Store.Listing

/-! What becomes of edits.

A page has writers of two kinds. Extraction stores what it has found, as often as it likes, and the
owner of a draft edits the text or takes the edit back. They write different columns of one row. So
after any history of both, refused calls included, a page has the last edit that was saved and the
content that was stored last, whichever came first; and its text is that of the edit, if it has
one (`edits_stand`). -/
namespace Quire
open Txn

/-- The columns of a page that an edit writes. -/
structure Edit where
  text : Option String
  editor : Option String
  time : Option String
  deriving DecidableEq

/-- A page that nobody has edited. -/
def Edit.absent : Edit := ⟨none, none, none⟩

def Page.edit (p : Page) : Edit := ⟨p.editedText, p.editedBy, p.editedAt⟩

namespace PageRow

def edit (r : PageRow) : Edit := ⟨r.editedText, r.editedBy, r.editedAt⟩

/-- A row with another edit, and else as it is. -/
def withEdit (e : Edit) (r : PageRow) : PageRow :=
  { r with editedText := e.text, editedBy := e.editor, editedAt := e.time }

end PageRow

namespace Store
variable (s : Store) (d : String) (n : UInt32)

/-- The row of a page. -/
def page? : Option PageRow := s.pages.find? (Pages.isPage d n)

/-- The store with another edit of a page, and else as it is. -/
def withEdit (e : Edit) : Store :=
  { s with pages := changeWhere (Pages.isPage d n) (PageRow.withEdit e) s.pages }

/-- Somebody may edit a page: it is there, on a draft of his own. -/
def Editable (owner : String) : Prop :=
  (s.page? d n).isSome = true ∧ ∃ document, ((Documents.find d).run s).1 = .ok (some document) ∧
    document.ownerId = owner ∧ document.status = .draft

end Store

/-! ### Histories -/

/-- What happens to pages: somebody has asked for an edit and has had an answer, or extraction has
stored some pages. Anything else may happen to documents and jobs. -/
inductive PageAct
  | edit (documentId caller : String) (pageNo : UInt32) (text : Option String)
      (answer : Except PipelineError String)
  | store (documentId now : String) (pages : List NewPage)
  | other

namespace PageAct

/-- An act leads from one store to another. -/
inductive Step : PageAct → Store → Store → Prop
  | edit {s s' : Store} {d caller : String} {n : UInt32} {text : Option String}
      {answer : Except PipelineError String} :
      Surroundings.free.Runs (Pipeline.saveEdit d caller n text).run (s, ()) answer (s', ()) →
      Step (.edit d caller n text answer) s s'
  | store {s s' : Store} {d now : String} {pages : List NewPage} :
      (Pages.upsertAll d now pages).run s = (.ok (), s') → Step (.store d now pages) s s'
  | other {s s' : Store} : s'.pages = s.pages → Step .other s s'

/-- The edit of a page that an act has saved. -/
def edit? (d : String) (n : UInt32) : PageAct → Option Edit
  | .edit d' caller n' text (.ok time) =>
    if d' = d ∧ n' = n then some ⟨text, some caller, some time⟩ else none
  | _ => none

/-- What an act has stored for a page, and when. -/
def store? (d : String) (n : UInt32) : PageAct → Option (String × NewPage)
  | .store d' now pages => (if d' = d then lastOf n pages else none).map (now, ·)
  | _ => none

end PageAct

/-- Acts one after the other lead from one store to another. -/
inductive Store.Worked (s : Store) : List PageAct → Store → Prop
  | nil : s.Worked [] s
  | snoc {acts : List PageAct} {a : PageAct} {s₁ s₂ : Store} :
      s.Worked acts s₁ → a.Step s₁ s₂ → s.Worked (acts ++ [a]) s₂

section Latest
variable {α β : Type} (f : α → Option β)

/-- The last of what there is in a history. -/
def latest (acts : List α) : Option β := acts.reverse.findSome? f

theorem latest_append (acts : List α) (a : α) :
    latest f (acts ++ [a]) = (f a).or (latest f acts) := by
  unfold latest
  rw [List.reverse_append, List.reverse_singleton, List.singleton_append, List.findSome?_cons]
  cases f a <;> rfl

variable {f} {acts : List α} {a : α}

theorem latest_snoc_of_none (h : f a = none) : latest f (acts ++ [a]) = latest f acts := by
  rw [latest_append, h, Option.none_or]

theorem latest_snoc_of_some {b : β} (h : f a = some b) : latest f (acts ++ [a]) = some b := by
  rw [latest_append, h, Option.some_or]

end Latest

/-- The edit that stands after some acts: the last one that was saved, or the one that was there
before. -/
def Store.standing (s : Store) (acts : List PageAct) (d : String) (n : UInt32) : Edit :=
  ((latest (PageAct.edit? d n) acts).or ((s.page? d n).map PageRow.edit)).getD .absent

/-! ### What an act does to a page -/

/-- What becomes of the row of a page when something is stored for it: its content is replaced, and
neither an edit nor the time it was made. -/
inductive PageRow.Stored (now : String) : Option NewPage → Option PageRow → Option PageRow → Prop
  | kept (r : Option PageRow) : Stored now none r r
  | replaced {p : NewPage} {r r' : PageRow} : r'.Holds p → r'.edit = r.edit →
      r'.createdAt = r.createdAt → Stored now (some p) (some r) (some r')
  | added {p : NewPage} {r : PageRow} : r.Holds p → r.edit = .absent → r.createdAt = now →
      Stored now (some p) none (some r)

theorem PageRow.Stored.eq_of_none {now : String} {r r' : Option PageRow}
    (h : Stored now none r r') : r' = r := by
  cases h
  rfl

/-- What is stored for a page that is there leaves its edit and its time. -/
theorem PageRow.Stored.keeps {now : String} {p : Option NewPage} {r : PageRow} {r' : Option PageRow}
    (h : Stored now p (some r) r') :
    ∃ r₁, r' = some r₁ ∧ r₁.edit = r.edit ∧ r₁.createdAt = r.createdAt := by
  cases h with
  | kept => exact ⟨r, rfl, rfl, rfl⟩
  | replaced _ hedit hcreated => exact ⟨_, rfl, hedit, hcreated⟩

/-- Of two pages stored one after the other the second one counts. -/
theorem PageRow.Stored.trans {now : String} {p p' : Option NewPage} {r r' r'' : Option PageRow}
    (h : Stored now p r r') (h' : Stored now p' r' r'') : Stored now (p'.or p) r r'' := by
  cases h' with
  | kept => exact h
  | replaced hholds hedit hcreated =>
    cases h with
    | kept => exact .replaced hholds hedit hcreated
    | replaced _ hedit' hcreated' =>
      exact .replaced hholds (hedit.trans hedit') (hcreated.trans hcreated')
    | added _ hedit' hcreated' =>
      exact .added hholds (hedit.trans hedit') (hcreated.trans hcreated')
  | added hholds hedit hcreated =>
    cases h with
    | kept => exact .added hholds hedit hcreated

/-- What becomes of the row of a page by an act. -/
inductive PageAct.Turns (a : PageAct) (d : String) (n : UInt32) :
    Option PageRow → Option PageRow → Prop
  | same {r : Option PageRow} : a.edit? d n = none → a.store? d n = none → Turns a d n r r
  | edited {e : Edit} {r : PageRow} : a.edit? d n = some e → a.store? d n = none →
      Turns a d n (some r) (some (r.withEdit e))
  | stored {now : String} {p : NewPage} {r r' : Option PageRow} : a.edit? d n = none →
      a.store? d n = some (now, p) → PageRow.Stored now (some p) r r' → Turns a d n r r'

namespace Pages
variable {s s' : Store} {d now : String} {n : UInt32}

/-- One page is changed, and every other one is as it was. -/
theorem page?_changeWhere {f : PageRow → PageRow}
    (hf : ∀ r, ((f r).documentId, (f r).pageNo) = (r.documentId, r.pageNo))
    (hpages : s'.pages = changeWhere (isPage d n) f s.pages) (d' : String) (n' : UInt32) :
    s'.page? d' n' = if d = d' ∧ n = n' then (s.page? d' n').map f else s.page? d' n' := by
  have hkey (r : PageRow) : isPage d' n' (f r) = isPage d' n' r := by
    unfold isPage
    rw [(Prod.mk.inj (hf r)).1, (Prod.mk.inj (hf r)).2]
  unfold Store.page?
  rw [hpages, find?_changeWhere fun r _ => hkey r]
  cases hfound : s.pages.find? (isPage d' n') with
  | none => simp
  | some r =>
    have hpage := List.find?_some hfound
    rw [Option.map_some, Option.map_some]
    by_cases hsame : d = d' ∧ n = n'
    · rw [if_pos hsame, hsame.1, hsame.2, if_pos hpage]
    · rw [if_neg hsame, if_neg fun hother => hsame ?_]
      obtain rfl : d = d' := (isPage_iff.mp hother).1.symm.trans (isPage_iff.mp hpage).1
      exact ⟨rfl, isPage_unique hother hpage⟩

theorem page?_withEdit (e : Edit) (d' : String) (n' : UInt32) :
    (s.withEdit d n e).page? d' n' =
      if d = d' ∧ n = n' then (s.page? d' n').map (PageRow.withEdit e) else s.page? d' n' :=
  page?_changeWhere (f := PageRow.withEdit e) (fun _ => rfl) rfl d' n'

/-- A page is added where there was none, and every other one is as it was. -/
theorem page?_append {r : PageRow} (hr : isPage d n r = true)
    (hnone : s.pages.any (isPage d n) = false) (hpages : s'.pages = s.pages ++ [r]) (d' : String)
    (n' : UInt32) : s'.page? d' n' = if d = d' ∧ n = n' then some r else s.page? d' n' := by
  unfold Store.page?
  rw [hpages, List.find?_append, List.find?_singleton]
  by_cases hsame : d = d' ∧ n = n'
  · obtain ⟨rfl, rfl⟩ := hsame
    have hmissing : s.pages.find? (isPage d n) = none := by simpa using hnone
    rw [hmissing, if_pos hr, if_pos ⟨rfl, rfl⟩]
    rfl
  · rw [if_neg hsame, if_neg fun hother => hsame ?_, Option.or_none]
    obtain rfl : d = d' := (isPage_iff.mp hr).1.symm.trans (isPage_iff.mp hother).1
    exact ⟨rfl, isPage_unique hr hother⟩

/-- The content of a page that is there is replaced, for its number only. -/
theorem stored_of_replaced {p : NewPage} (hany : s.pages.any (isPage d p.pageNo) = true)
    (hpages : s'.pages = changeWhere (isPage d p.pageNo) (withContent p) s.pages) (d' : String)
    (n' : UInt32) : PageRow.Stored now (if d = d' ∧ p.pageNo = n' then some p else none)
      (s.page? d' n') (s'.page? d' n') := by
  rw [page?_changeWhere (f := withContent p) (fun _ => rfl) hpages]
  split
  case isTrue hsame =>
    obtain ⟨rfl, rfl⟩ := hsame
    have hthere : (s.page? d p.pageNo).isSome = true :=
      List.find?_isSome.mpr (List.any_eq_true.mp hany)
    obtain ⟨r, hr⟩ := Option.isSome_iff_exists.mp hthere
    rw [hr]
    exact .replaced rfl rfl rfl
  case isFalse => exact .kept _

/-- A page that is not there is added, for its number only. -/
theorem stored_of_added {p : NewPage} {id : Int} (hnone : s.pages.any (isPage d p.pageNo) = false)
    (hpages : s'.pages = s.pages ++ [rowOf id d p now]) (d' : String) (n' : UInt32) :
    PageRow.Stored now (if d = d' ∧ p.pageNo = n' then some p else none) (s.page? d' n')
      (s'.page? d' n') := by
  have hrow : isPage d p.pageNo (rowOf id d p now) = true := isPage_iff.mpr ⟨rfl, rfl⟩
  rw [page?_append hrow hnone hpages]
  split
  case isTrue hsame =>
    obtain ⟨rfl, rfl⟩ := hsame
    have hmissing : s.page? d p.pageNo = none := by simpa [Store.page?] using hnone
    rw [hmissing]
    exact .added rfl rfl rfl
  case isFalse => exact .kept _

/-- A page that is stored is stored for its number only. -/
theorem upsert_stores (p : NewPage) :
    (upsert d p now).wp (fun _ s' => ∀ d' n', PageRow.Stored now
      (if d = d' ∧ p.pageNo = n' then some p else none) (s.page? d' n') (s'.page? d' n'))
      (fun _ => True) s := by
  rw [upsert_wp]
  split
  case isFalse => trivial
  case isTrue =>
    split
    case isTrue hany => exact stored_of_replaced hany rfl
    case isFalse hany =>
      split
      case isTrue => exact stored_of_added (Bool.not_eq_true _ ▸ hany) rfl
      case isFalse => trivial

theorem upsertAll_stores (pages : List NewPage) :
    (upsertAll d now pages).wp (fun _ s' => ∀ d' n', PageRow.Stored now
      (if d = d' then lastOf n' pages else none) (s.page? d' n') (s'.page? d' n'))
      (fun _ => True) s := by
  induction pages generalizing s with
  | nil =>
    intro d' n'
    rw [show lastOf n' [] = none from rfl, ite_self]
    exact .kept _
  | cons p rest ih =>
    unfold upsertAll
    rw [wp_bind]
    refine wp_mono (upsert_stores p) (fun _ s₁ h₁ => ?_) fun _ _ => trivial
    refine wp_mono ih (fun _ s₂ h₂ d' n' => ?_) fun _ _ => trivial
    have hboth := (h₁ d' n').trans (h₂ d' n')
    by_cases hd : d = d'
    · rw [if_pos hd, lastOf_cons]
      simpa [hd] using hboth
    · simpa [hd] using hboth

theorem stored_of_upsertAll {pages : List NewPage}
    (h : (upsertAll d now pages).run s = (.ok (), s')) (d' : String) (n' : UInt32) :
    PageRow.Stored now (if d = d' then lastOf n' pages else none) (s.page? d' n')
      (s'.page? d' n') := by
  have hstored := ((wp_iff_run _).mp (upsertAll_stores pages)).1 () (congrArg Prod.fst h) d' n'
  rwa [show ((upsertAll d now pages).run s).2 = s' from congrArg Prod.snd h] at hstored

end Pages

namespace Pipeline
variable {s s' : Store} {d caller : String} {n : UInt32} {text : Option String}

/-- The document is handed out to its owner, as it is read. -/
theorem ownDocument_reads :
    (ownDocument d caller).wp
      (fun document s' => s' = s ∧ ((Documents.find d).run s).1 = .ok (some document) ∧
        document.ownerId = caller)
      (fun _ => ∀ document, ((Documents.find d).run s).1 = .ok (some document) →
        document.ownerId ≠ caller) s := by
  have hsame : ((Documents.find d).run s).2 = s := (Documents.find_readOnly d s).run rfl
  unfold ownDocument
  rw [wp_bind, wp_widen]
  refine (wp_iff_run _).mpr ⟨fun found hfound => ?_, fun e he document hdocument => ?_⟩
  · rw [hsame]
    cases found with
    | none =>
      intro document hdocument
      rw [hfound] at hdocument
      cases hdocument
    | some document =>
      simp only [wp_bind, wp_require, wp_pure]
      refine ⟨fun howner => ⟨trivial, hfound, by simpa using howner⟩,
        fun hother document' hdocument => ?_⟩
      obtain rfl := Option.some.inj (Except.ok.inj (hfound.symm.trans hdocument))
      simpa using hother
  · rw [he] at hdocument
    cases hdocument

/-- An edit is saved if the caller may make it, and else nothing happens. -/
theorem editPage_wp (now : String) :
    (editPage d caller n text now).wp
      (fun _ s' => s.Editable d n caller ∧ s' = s.withEdit d n ⟨text, some caller, some now⟩)
      (fun _ => ¬ s.Editable d n caller) s := by
  have hcount : 0 < (s.pages.filter (Pages.isPage d n)).length ↔ (s.page? d n).isSome = true := by
    unfold Store.page?
    rw [List.length_pos_iff_exists_mem, List.find?_isSome]
    simp only [List.mem_filter]
  unfold editPage
  rw [wp_bind]
  refine wp_mono ownDocument_reads (fun document s₁ h => ?_)
    fun _ h ⟨_, document, hread, howner, _⟩ => h document hread howner
  obtain ⟨rfl, hread, howner⟩ := h
  simp only [wp_bind, wp_require, wp_widen, Pages.setEdit, wp_store, wp_modify, wp_pure]
  refine ⟨fun hdraft => ⟨fun hsome => ⟨⟨?_, document, hread, howner, ?_⟩, rfl⟩, fun hnone => ?_⟩,
    fun hother => ?_⟩
  · exact hcount.mp (of_decide_eq_true hsome)
  · simpa using hdraft
  · rintro ⟨hpage, -⟩
    exact of_decide_eq_false hnone (hcount.mpr hpage)
  · rintro ⟨-, document', hread', -, hdraft⟩
    obtain rfl := Option.some.inj (Except.ok.inj (hread.symm.trans hread'))
    exact absurd hdraft (by simpa using hother)

/-- So it is with a call. -/
theorem saveEdit_runs {answer : Except PipelineError String}
    (h : Surroundings.free.Runs (saveEdit d caller n text).run (s, ()) answer (s', ())) :
    Either
      (fun time s' => s.Editable d n caller ∧ s' = s.withEdit d n ⟨text, some caller, some time⟩)
      (fun _ s' => ¬ s.Editable d n caller ∧ s' = s) answer s' := by
  have hsave : (saveEdit d caller n text).Amid (.alone .free) (fun m => m.1 = s)
      (fun time m => s.Editable d n caller ∧ m.1 = s.withEdit d n ⟨text, some caller, some time⟩)
      fun _ m => ¬ s.Editable d n caller ∧ m.1 = s := by
    refine Run.Amid.bind (R := fun _ m => m.1 = s)
      (.ask (Company.alone_stable _) rfl fun _ _ _ hm _ => ⟨trivial, hm⟩) fun now => ?_
    refine Run.Amid.bind (R := fun _ m => s.Editable d n caller ∧
        m.1 = s.withEdit d n ⟨text, some caller, some now.timestamp⟩)
      (.transact (Company.alone_stable _) fun s₁ _ hs => ?_) fun _ => .pure fun _ hm => hm
    obtain rfl : s₁ = s := hs
    exact wp_mono (editPage_wp now.timestamp) (fun _ _ h => ⟨trivial, h⟩) fun _ h => ⟨h, rfl⟩
  have hend := Company.ends_of_runs (fun _ => rfl) (Run.Amid.iff_leads.mp hsave (s, ()) rfl) h
  cases answer with
  | ok time => exact hend
  | error e => exact hend

end Pipeline

/-- Every act does one thing to a page, or nothing. -/
theorem PageAct.Step.turns {a : PageAct} {s s' : Store} (h : a.Step s s') (d : String)
    (n : UInt32) : a.Turns d n (s.page? d n) (s'.page? d n) := by
  cases h with
  | @edit _ _ d₀ caller n₀ text answer hruns =>
    have hsaved := Pipeline.saveEdit_runs hruns
    cases answer with
    | error e =>
      obtain ⟨-, rfl⟩ := hsaved
      exact .same rfl rfl
    | ok time =>
      obtain ⟨⟨hpage, -⟩, rfl⟩ := hsaved
      rw [Pages.page?_withEdit]
      by_cases hsame : d₀ = d ∧ n₀ = n
      · rw [if_pos hsame]
        obtain ⟨rfl, rfl⟩ := hsame
        obtain ⟨r, hr⟩ := Option.isSome_iff_exists.mp hpage
        rw [hr]
        exact .edited (if_pos ⟨rfl, rfl⟩) rfl
      · rw [if_neg hsame]
        exact .same (if_neg hsame) rfl
  | @store _ _ d₀ now pages hruns =>
    have hstored := Pages.stored_of_upsertAll hruns d n
    cases hp : if d₀ = d then lastOf n pages else none with
    | none =>
      rw [hp] at hstored
      rw [hstored.eq_of_none]
      exact .same rfl (congrArg (Option.map _) hp)
    | some p =>
      rw [hp] at hstored
      exact .stored rfl (congrArg (Option.map _) hp) hstored
  | other hpages =>
    unfold Store.page?
    rw [hpages]
    exact .same rfl rfl

/-! ### What a history leaves -/

/-- A row after some acts: it has the last edit and the last content, and is as old as it was. -/
structure PageRow.Stands (first : Option PageRow) (acts : List PageAct) (d : String) (n : UInt32)
    (r : PageRow) : Prop where
  edit : r.edit = ((latest (PageAct.edit? d n) acts).or (first.map PageRow.edit)).getD .absent
  stored : ∀ now p, latest (PageAct.store? d n) acts = some (now, p) → r.Holds p
  unstored : latest (PageAct.store? d n) acts = none →
    ∃ r₀, first = some r₀ ∧ r₀.withEdit r.edit = r
  created : some r.createdAt =
    (first.map (·.createdAt)).or ((acts.findSome? (PageAct.store? d n)).map Prod.fst)

/-- What there is of a page after some acts; if nothing, there was nothing, and nothing was done. -/
def PageAct.Leaves (first : Option PageRow) (acts : List PageAct) (d : String) (n : UInt32) :
    Option PageRow → Prop
  | none => first = none ∧ ∀ a ∈ acts, a.edit? d n = none ∧ a.store? d n = none
  | some r => r.Stands first acts d n

section
variable {first : Option PageRow} {acts : List PageAct} {a : PageAct} {d : String} {n : UInt32}
  {r r' : PageRow}

theorem latest_of_forall {α β : Type} {f : α → Option β} {acts : List α}
    (h : ∀ a ∈ acts, f a = none) : latest f acts = none :=
  List.findSome?_eq_none_iff.mpr fun a ha => h a (List.mem_reverse.mp ha)

theorem findSome?_snoc {α β : Type} (f : α → Option β) (acts : List α) (a : α) :
    (acts ++ [a]).findSome? f = (acts.findSome? f).or (f a) := by
  rw [List.findSome?_append, List.findSome?_singleton]

/-- The first time stays, whatever is stored later. -/
theorem PageRow.Stands.created_snoc (h : r.Stands first acts d n) :
    some r.createdAt =
      (first.map (·.createdAt)).or
        (((acts ++ [a]).findSome? (PageAct.store? d n)).map Prod.fst) := by
  have hcreated := h.created
  rw [findSome?_snoc]
  cases first with
  | some r₀ => exact hcreated
  | none =>
    cases htime : acts.findSome? (PageAct.store? d n) with
    | none => simp [htime] at hcreated
    | some stored =>
      rw [htime] at hcreated
      exact hcreated

namespace PageRow.Stands

/-- An act that does nothing to a page leaves its row standing. -/
theorem same (h : r.Stands first acts d n) (hedit : a.edit? d n = none)
    (hstore : a.store? d n = none) : r.Stands first (acts ++ [a]) d n where
  edit := by
    rw [latest_snoc_of_none hedit]
    exact h.edit
  stored now p hlast := h.stored now p (latest_snoc_of_none hstore ▸ hlast)
  unstored hnone := h.unstored (latest_snoc_of_none hstore ▸ hnone)
  created := h.created_snoc

/-- An edit takes the place of the one before, and the content stays. -/
theorem edited {e : Edit} (h : r.Stands first acts d n) (hedit : a.edit? d n = some e)
    (hstore : a.store? d n = none) : (r.withEdit e).Stands first (acts ++ [a]) d n where
  edit := by
    rw [latest_snoc_of_some hedit]
    rfl
  stored now p hlast :=
    congrArg (withEdit e) (h.stored now p (latest_snoc_of_none hstore ▸ hlast))
  unstored hnone := by
    obtain ⟨r₀, hfirst, hr⟩ := h.unstored (latest_snoc_of_none hstore ▸ hnone)
    have hagain := congrArg (withEdit e) hr
    exact ⟨r₀, hfirst, hagain⟩
  created := h.created_snoc

variable {now : String} {p : NewPage}

/-- A row that holds what was stored last, whatever there was before. -/
theorem of_holds (hstore : a.store? d n = some (now, p)) (hholds : r.Holds p)
    (hedit : r.edit =
      ((latest (PageAct.edit? d n) (acts ++ [a])).or (first.map PageRow.edit)).getD .absent)
    (hcreated : some r.createdAt = (first.map (·.createdAt)).or
      (((acts ++ [a]).findSome? (PageAct.store? d n)).map Prod.fst)) :
    r.Stands first (acts ++ [a]) d n where
  edit := hedit
  stored _ _ hlast := by
    obtain ⟨-, rfl⟩ := Prod.mk.inj (Option.some.inj ((latest_snoc_of_some hstore).symm.trans hlast))
    exact hholds
  unstored hnone := by
    rw [latest_snoc_of_some hstore] at hnone
    cases hnone
  created := hcreated

/-- A row whose content is replaced has the edit that it had, and is as old as it was. -/
theorem replaced (h : r.Stands first acts d n) (hedit : a.edit? d n = none)
    (hstore : a.store? d n = some (now, p)) (hholds : r'.Holds p) (hsame : r'.edit = r.edit)
    (hcreated : r'.createdAt = r.createdAt) : r'.Stands first (acts ++ [a]) d n := by
  refine of_holds hstore hholds ?_ ?_
  · rw [latest_snoc_of_none hedit, hsame]
    exact h.edit
  · rw [hcreated]
    exact h.created_snoc

/-- A row that is added where there has been none is as old as what is stored. -/
theorem added (hbefore : PageAct.Leaves first acts d n none) (hedit : a.edit? d n = none)
    (hstore : a.store? d n = some (now, p)) (hholds : r.Holds p) (habsent : r.edit = .absent)
    (hcreated : r.createdAt = now) : r.Stands first (acts ++ [a]) d n := by
  obtain ⟨rfl, hnone⟩ := hbefore
  refine of_holds hstore hholds ?_ ?_
  · rw [latest_snoc_of_none hedit, latest_of_forall fun b hb => (hnone b hb).1]
    exact habsent
  · have hearlier : acts.findSome? (PageAct.store? d n) = none :=
      List.findSome?_eq_none_iff.mpr fun b hb => (hnone b hb).2
    rw [findSome?_snoc, hearlier, hstore, hcreated]
    rfl

end PageRow.Stands

/-- One more act. -/
theorem PageAct.Leaves.turn {before after : Option PageRow} (h : Leaves first acts d n before)
    (hturn : a.Turns d n before after) : Leaves first (acts ++ [a]) d n after := by
  cases hturn with
  | same hedit hstore =>
    cases before with
    | none =>
      refine ⟨h.1, fun b hb => ?_⟩
      rcases List.mem_append.mp hb with hb | hb
      · exact h.2 b hb
      · exact List.mem_singleton.mp hb ▸ ⟨hedit, hstore⟩
    | some r => exact PageRow.Stands.same h hedit hstore
  | edited hedit hstore => exact PageRow.Stands.edited h hedit hstore
  | stored hedit hstore hstored =>
    cases hstored with
    | replaced hholds hsame hcreated => exact .replaced h hedit hstore hholds hsame hcreated
    | added hholds habsent hcreated => exact .added h hedit hstore hholds habsent hcreated

end

/-- What a whole history leaves of a page. -/
theorem Store.Worked.leaves {s s' : Store} {acts : List PageAct} (h : s.Worked acts s') (d : String)
    (n : UInt32) : PageAct.Leaves (s.page? d n) acts d n (s'.page? d n) := by
  induction h with
  | nil =>
    cases hfirst : s.page? d n with
    | none => exact ⟨rfl, fun _ ha => nomatch ha⟩
    | some r => exact ⟨rfl, nofun, fun _ => ⟨r, rfl, rfl⟩, rfl⟩
  | snoc _ hstep ih => exact ih.turn (hstep.turns d n)

/-! ### Reading -/

theorem Pages.find_run (s : Store) (d : String) (n : UInt32) :
    (find d n).run s = ((match s.page? d n with
      | none => .ok none
      | some r => r.read.map some), s) := by
  rw [← wp_eq_run]
  unfold find
  rw [wp_bind, wp_store]
  unfold Store.page?
  cases s.pages.find? (isPage d n) with
  | none => rfl
  | some r =>
    dsimp only
    cases r.read <;> rfl

/-- What is read of a row has its edit, and is as old. -/
theorem PageRow.edit_of_read {r : PageRow} {page : Page} (h : r.read = .ok page) :
    page.edit = r.edit ∧ page.createdAt = r.createdAt := by
  obtain ⟨pageNo, -, h⟩ := bind_eq_ok.mp h
  obtain ⟨wordCount, -, h⟩ := bind_eq_ok.mp h
  obtain ⟨cleaningFailed, -, h⟩ := bind_eq_ok.mp h
  obtain rfl := Except.ok.inj h
  exact ⟨rfl, rfl⟩

/-- A look for a page reads its row. -/
theorem Pages.find_eq_ok_iff {s : Store} {d : String} {n : UInt32} {page : Page} :
    ((find d n).run s).1 = .ok (some page) ↔ ∃ r, s.page? d n = some r ∧ r.read = .ok page := by
  rw [find_run]
  cases s.page? d n with
  | none => simp
  | some r => cases hread : r.read <;> simp [Except.map, hread]

/-- What was stored last of a number has that number. -/
theorem PageAct.pageNo_of_latest {acts : List PageAct} {d now : String} {n : UInt32} {p : NewPage}
    (h : latest (store? d n) acts = some (now, p)) : p.pageNo = n := by
  obtain ⟨a, -, ha⟩ := List.exists_of_findSome?_eq_some h
  cases a with
  | store d' now' pages =>
    obtain ⟨p', hp', hp⟩ := Option.map_eq_some_iff.mp ha
    obtain ⟨-, rfl⟩ := Prod.mk.inj hp
    split at hp'
    · simpa using List.find?_some hp'
    · cases hp'
  | _ => cases ha

/-- A page as it is read after some acts. -/
structure Page.Stands (s : Store) (acts : List PageAct) (d : String) (n : UInt32) (page : Page) :
    Prop where
  edit : page.edit = s.standing acts d n
  /-- What was stored last is there; the text is that of the edit, if it has one. -/
  stored : ∀ now p, latest (PageAct.store? d n) acts = some (now, p) → page.Shows p ∧
    page.finalText = (s.standing acts d n).text.getD p.cleanText
  /-- If nothing was stored, all but the edit is as it was. -/
  unstored : latest (PageAct.store? d n) acts = none → ∃ r, s.page? d n = some r ∧
    (r.withEdit (s.standing acts d n)).read = .ok page ∧
    page.finalText = Quire.finalText r.rawText r.cleanText (s.standing acts d n).text
  /-- The page is as old as it was, or as the first thing that was stored. -/
  created : some page.createdAt = ((s.page? d n).map (·.createdAt)).or
    ((acts.findSome? (PageAct.store? d n)).map Prod.fst)

section
variable {s : Store} {acts : List PageAct} {d now : String} {n : UInt32} {r : PageRow} {p : NewPage}

/-- A row whose content was stored can be read. -/
theorem PageRow.Stands.read (h : r.Stands (s.page? d n) acts d n) (hr : Pages.isPage d n r = true)
    (hlast : latest (PageAct.store? d n) acts = some (now, p)) :
    ∃ page, r.read = .ok page ∧ page.Shows p := by
  refine PageRow.read_of_holds ?_ (h.stored now p hlast)
  rw [PageAct.pageNo_of_latest hlast]
  exact (Pages.isPage_iff.mp hr).2

theorem PageRow.Stands.page (h : r.Stands (s.page? d n) acts d n) (hr : Pages.isPage d n r = true)
    {page : Page} (hread : r.read = .ok page) : page.Stands s acts d n := by
  obtain ⟨hedit, hcreated⟩ := PageRow.edit_of_read hread
  have hstanding : page.edit = s.standing acts d n := hedit.trans h.edit
  refine ⟨hstanding, fun now p hlast => ?_, fun hnone => ?_, hcreated ▸ h.created⟩
  · obtain ⟨page', hread', hshows⟩ := h.read hr hlast
    obtain rfl := Except.ok.inj (hread.symm.trans hread')
    refine ⟨hshows, ?_⟩
    rw [← hstanding]
    unfold Page.finalText finalText Page.edit
    rw [hshows.cleanText]
    cases page.editedText <;> rfl
  · obtain ⟨r₀, hfirst, hsame⟩ := h.unstored hnone
    rw [h.edit] at hsame
    have hread' : (r₀.withEdit (s.standing acts d n)).read = .ok page :=
      (congrArg PageRow.read hsame).trans hread
    exact ⟨r₀, hfirst, hread', PageRow.finalText_of_read hread'⟩

end

/-- Whatever calls for edits are made and whatever is stored meanwhile: every page has the edit that
was saved last and the content that was stored last. Its text is that of the edit, if it has one,
be it empty, and else the one that was stored. A call is answered with a time if the caller may make
it; then this edit is all that it has changed, and otherwise it has changed nothing. What is stored
leaves the edits of all pages as they are, and the times they were made. -/
theorem edits_stand {s s' : Store} {acts : List PageAct} (h : s.Worked acts s') :
    (∀ d n,
      (∀ stored, latest (PageAct.store? d n) acts = some stored →
        ∃ page, ((Pages.find d n).run s').1 = .ok (some page)) ∧
      ∀ page, ((Pages.find d n).run s').1 = .ok (some page) → page.Stands s acts d n) ∧
    (∀ d caller n text answer s₁ s₂,
      Surroundings.free.Runs (Pipeline.saveEdit d caller n text).run (s₁, ()) answer (s₂, ()) →
        ((∃ time, answer = .ok time) ↔ s₁.Editable d n caller) ∧
        (∀ time, answer = .ok time → s₂ = s₁.withEdit d n ⟨text, some caller, some time⟩) ∧
        ∀ e, answer = .error e → s₂ = s₁) ∧
    ∀ d now pages s₁ s₂, (Pages.upsertAll d now pages).run s₁ = (.ok (), s₂) →
      ∀ d' n r, s₁.page? d' n = some r →
        ∃ r', s₂.page? d' n = some r' ∧ r'.edit = r.edit ∧ r'.createdAt = r.createdAt := by
  refine ⟨fun d n => ?_, fun d caller n text answer s₁ s₂ hruns => ?_,
    fun d now pages s₁ s₂ hruns d' n r hr => ?_⟩
  · have hleaves := h.leaves d n
    refine ⟨fun stored hlast => ?_, fun page hpage => ?_⟩
    · cases hrow : s'.page? d n with
      | none =>
        rw [hrow] at hleaves
        rw [latest_of_forall fun a ha => (hleaves.2 a ha).2] at hlast
        cases hlast
      | some r =>
        rw [hrow] at hleaves
        obtain ⟨page, hread, -⟩ := PageRow.Stands.read hleaves (List.find?_some hrow) hlast
        exact ⟨page, Pages.find_eq_ok_iff.mpr ⟨r, hrow, hread⟩⟩
    · obtain ⟨r, hrow, hread⟩ := Pages.find_eq_ok_iff.mp hpage
      rw [hrow] at hleaves
      exact PageRow.Stands.page hleaves (List.find?_some hrow) hread
  · have hsaved := Pipeline.saveEdit_runs hruns
    cases answer with
    | ok time =>
      obtain ⟨hmay, rfl⟩ := hsaved
      exact ⟨⟨fun _ => hmay, fun _ => ⟨time, rfl⟩⟩, fun _ htime => Except.ok.inj htime ▸ rfl, nofun⟩
    | error e =>
      obtain ⟨hmay, rfl⟩ := hsaved
      exact ⟨⟨nofun, fun h => absurd h hmay⟩, nofun, fun _ _ => rfl⟩
  · have hstored := Pages.stored_of_upsertAll hruns d' n
    rw [hr] at hstored
    exact hstored.keeps

namespace Attended

/-- Somebody else asks for an edit of the only page, the owner empties it, and the page is stored
again. -/
def acts : List PageAct :=
  [.edit "d" "x" 1 (some "mine") (.error .forbidden),
    .edit "d" "o" 1 (some "") (.ok Background.start.timestamp),
    .store "d" "t" [.uncleaned 1 "b" .ocr]]

def emptied : Store := draft.withEdit "d" 1 ⟨some "", some "o", some Background.start.timestamp⟩

def storedAgain : Store := ((Pages.upsertAll "d" "t" [.uncleaned 1 "b" .ocr]).run emptied).2

theorem worked : draft.Worked acts storedAgain := by
  have hrefused : PageAct.Step (.edit "d" "x" 1 (some "mine") (.error .forbidden)) draft draft :=
    .edit ⟨Background.start, (draft, ()), ⟨rfl, trivial⟩, .error .forbidden, (draft, ()),
      ⟨rfl, rfl⟩, .of_done rfl _⟩
  have hsaved : PageAct.Step (.edit "d" "o" 1 (some "") (.ok Background.start.timestamp)) draft
      emptied :=
    .edit ⟨Background.start, (draft, ()), ⟨rfl, trivial⟩, .ok (), (emptied, ()), ⟨rfl, rfl⟩,
      .of_done rfl _⟩
  exact ((Store.Worked.nil.snoc hrefused).snoc hsaved).snoc (.store rfl)

/-- The owner takes the edit back. -/
def clearing : PageAct := .edit "d" "o" 1 none (.ok Background.start.timestamp)

def cleared : Store :=
  storedAgain.withEdit "d" 1 ⟨none, some "o", some Background.start.timestamp⟩

theorem worked_cleared : draft.Worked (acts ++ [clearing]) cleared :=
  worked.snoc (.edit ⟨Background.start, (storedAgain, ()), ⟨rfl, trivial⟩, .ok (), (cleared, ()),
    ⟨rfl, rfl⟩, .of_done rfl _⟩)

end Attended

/-- The page stays empty when it is stored again, and shows what was stored when the edit is taken
back. -/
theorem edits_stand_empty :
    (Attended.draft.Worked Attended.acts Attended.storedAgain ∧
      ∃ page, ((Pages.find "d" 1).run Attended.storedAgain).1 = .ok (some page) ∧
        page.finalText = "" ∧ page.editedBy = some "o" ∧ page.cleanText = some "b") ∧
    Attended.draft.Worked (Attended.acts ++ [Attended.clearing]) Attended.cleared ∧
      ∃ page, ((Pages.find "d" 1).run Attended.cleared).1 = .ok (some page) ∧
        page.finalText = "b" := by
  refine ⟨⟨Attended.worked, ?_⟩, Attended.worked_cleared, ?_⟩
  · obtain ⟨hthere, hstands⟩ := (edits_stand Attended.worked).1 "d" 1
    obtain ⟨page, hpage⟩ := hthere _ rfl
    have hstand := hstands page hpage
    obtain ⟨hshows, htext⟩ := hstand.stored _ _ rfl
    exact ⟨page, hpage, htext, congrArg Edit.editor hstand.edit, hshows.cleanText⟩
  · obtain ⟨hthere, hstands⟩ := (edits_stand Attended.worked_cleared).1 "d" 1
    obtain ⟨page, hpage⟩ := hthere _ rfl
    exact ⟨page, hpage, ((hstands page hpage).stored _ _ rfl).2⟩

end Quire
