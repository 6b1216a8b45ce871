import Quire.Proofs.Flow.Company
import Quire.Proofs.Question.Stages

/-! Calls on the cache that overlap.

Between its look at the store and its insertion a call waits for its generator. So several calls of
one key may find nothing, and each of them adds what its own generator has brought: what is kept is
one list behind the other (`overlapping_calls_settle`). If at most one call has found nothing, all
calls have the same answer, and later ones as well. -/
namespace Quire

/-- A call under way: its request, and what is left of it. -/
abbrev CacheCall := QuestionRequest × Flow (Except GenerationError CachedQuestions)

/-- Some calls, and the moment that all of them are in. -/
structure Overlap where
  moment : Moment Generating
  calls : List CacheCall

namespace Overlap

/-- All calls begin. -/
def start (m : Moment Generating) (requests : List QuestionRequest) : Overlap :=
  ⟨m, requests.map fun r => (r, r.run.run)⟩

/-- One of the calls has its question answered. -/
inductive Turn : Overlap → Overlap → Prop
  | answer {β : Type} (m m' : Moment Generating) (before after : List CacheCall)
      (r : QuestionRequest) (op : Effect β)
      (next : β → Flow (Except GenerationError CachedQuestions)) (b : β) :
      (Surroundings.generating r.generator).answers op m b m' →
      Turn ⟨m, before ++ (r, .ask op next) :: after⟩ ⟨m', before ++ (r, next b) :: after⟩

/-- All calls are done, each with a list. -/
def Done (o : Overlap) (answers : List CachedQuestions) : Prop :=
  o.calls.map (·.2) = answers.map fun a => .done (.ok a)

/-! ### Stages of several calls -/

/-- The calls are at these stages. -/
def Tracked (key : QuestionRequest.Key) : List CacheCall → List Stage → Prop :=
  List.Forall₂ fun call stage => call.1.key = key ∧ ∃ questions, call.1.Yields questions ∧
    Flow.Leads (call.1.tracking questions) call.1.Answered call.2 stage

/-- What the store keeps for a key, while calls are at some stages: what was there before, and
behind it the lists that calls have brought. -/
structure Fits (key : QuestionRequest.Key) (before : List Question) (stages : List Stage)
    (m : Moment Generating) (lists : List (List Question)) : Prop where
  kept : List.Forall₂ ArtifactRow.Holds (m.1.kept key) (before ++ lists.flatten)
  brought : lists.Perm (stages.filterMap Stage.brought?)
  nonempty : ∀ questions ∈ lists, questions ≠ []
  own : (stages.flatMap Stage.ids).Nodup
  unused : ∀ id ∈ stages.flatMap Stage.ids, m.1.hasArtifact id = false
  given : ∀ id, id ∈ stages.flatMap Stage.ids ∨ m.1.hasArtifact id = true → id ∈ m.2.ids
  agree : ∀ stage ∈ stages, stage.Agrees before lists

namespace Fits
variable {key : QuestionRequest.Key} {before : List Question} {stages : List Stage}
  {s : Store} {x x' : Generating} {lists : List (List Question)} {ids : List String}

/-- It does not matter which call is at which stage. -/
theorem perm (h : Fits key before stages (s, x) lists) {stages' : List Stage}
    (hperm : stages.Perm stages') : Fits key before stages' (s, x) lists := by
  have hids := hperm.flatMap_right Stage.ids
  refine ⟨h.kept, h.brought.trans (hperm.filterMap _), h.nonempty, hids.nodup_iff.mp h.own,
    fun id hid => h.unused id (hids.mem_iff.mpr hid), fun id hid => h.given id ?_,
    fun stage hstage => h.agree stage (hperm.mem_iff.mpr hstage)⟩
  exact hid.imp_left hids.mem_iff.mpr

/-- A call looks for what is kept. -/
theorem look (h : Fits key before (.begun :: stages) (s, x) lists) :
    Fits key before (.ofKept (before ++ lists.flatten) :: stages) (s, x) lists := by
  have hids : (Stage.ofKept (before ++ lists.flatten) :: stages).flatMap Stage.ids =
      (Stage.begun :: stages).flatMap Stage.ids := by
    rw [List.flatMap_cons, Stage.ids_ofKept]
    rfl
  have hbrought : (Stage.ofKept (before ++ lists.flatten) :: stages).filterMap Stage.brought? =
      (Stage.begun :: stages).filterMap Stage.brought? := by
    rw [List.filterMap_cons, Stage.brought?_ofKept]
    rfl
  refine ⟨h.kept, hbrought ▸ h.brought, h.nonempty, hids ▸ h.own, hids ▸ h.unused,
    hids ▸ h.given, ?_⟩
  intro stage hstage
  rcases List.mem_cons.mp hstage with rfl | hrest
  · exact Stage.agrees_ofKept before lists
  · exact h.agree stage (List.mem_cons_of_mem _ hrest)

/-- The generator or the clock answers. -/
theorem wait (h : Fits key before stages (s, x) lists) (hids : x'.ids = x.ids) :
    Fits key before stages (s, x') lists :=
  ⟨h.kept, h.brought, h.nonempty, h.own, h.unused, fun id hid => hids ▸ h.given id hid, h.agree⟩

/-- A call is given an id. -/
theorem name (h : Fits key before (.missed ids :: stages) (s, x) lists) {id : String}
    (hid : id ∉ x.ids) (hids : x'.ids = x.ids ++ [id]) :
    Fits key before (.missed (ids ++ [id]) :: stages) (s, x') lists := by
  have hperm : ((Stage.missed (ids ++ [id]) :: stages).flatMap Stage.ids).Perm
      (id :: (Stage.missed ids :: stages).flatMap Stage.ids) := by
    show (ids ++ [id] ++ _).Perm (id :: (ids ++ _))
    rw [List.append_assoc]
    exact List.perm_middle
  refine ⟨h.kept, h.brought, h.nonempty, ?_, ?_, ?_, ?_⟩
  · exact hperm.nodup_iff.mpr (List.nodup_cons.mpr ⟨fun hmem => hid (h.given id (.inl hmem)), h.own⟩)
  · intro id' hid'
    rcases List.mem_cons.mp (hperm.mem_iff.mp hid') with rfl | hold
    · exact Bool.eq_false_iff.mpr fun hthere => hid (h.given id' (.inr hthere))
    · exact h.unused id' hold
  · intro id' hid'
    show id' ∈ x'.ids
    rw [hids, List.mem_append, List.mem_singleton]
    rcases hid' with hmem | hthere
    · rcases List.mem_cons.mp (hperm.mem_iff.mp hmem) with rfl | hold
      · exact .inr rfl
      · exact .inl (h.given id' (.inl hold))
    · exact .inl (h.given id' (.inr hthere))
  · intro stage hstage
    rcases List.mem_cons.mp hstage with rfl | hrest
    · exact h.agree (.missed ids) List.mem_cons_self
    · exact h.agree stage (List.mem_cons_of_mem _ hrest)

/-- A call adds its questions. -/
theorem add (h : Fits key before (.missed ids :: stages) (s, x) lists) {r : QuestionRequest}
    (hkey : r.key = key) {now : Instant} {named : List (String × Question)}
    {questions : List Question} (hids : named.map (·.1) = ids) (hnamed : named.map (·.2) = questions)
    (hsome : questions ≠ []) :
    Fits key before (.added questions :: stages)
      ({ s with artifacts := s.artifacts ++ r.rows now named }, x) (lists ++ [questions]) := by
  have hthere : ∀ id, ({ s with artifacts := s.artifacts ++ r.rows now named } : Store).hasArtifact id
      = true ↔ s.hasArtifact id = true ∨ id ∈ ids := by
    intro id
    have hrows : (r.rows now named).map (·.id) = ids := QuestionRequest.ids_rows.trans hids
    rw [← hrows]
    simp [Store.hasArtifact]
  have hnodup : (ids ++ stages.flatMap Stage.ids).Nodup := h.own
  have hkept : ({ s with artifacts := s.artifacts ++ r.rows now named } : Store).kept key =
      s.kept key ++ r.rows now named := by
    unfold Store.kept Store.entry
    rw [List.filter_append, ← hkey]
    exact congrArg (_ ++ ·) ((QuestionRequest.entry_rows r).trans (if_pos ⟨rfl, rfl⟩))
  constructor
  case kept =>
    show List.Forall₂ ArtifactRow.Holds (Store.kept _ key) _
    rw [hkept, List.flatten_concat, ← List.append_assoc]
    exact List.rel_append h.kept (hnamed ▸ QuestionRequest.holds_rows)
  case brought => exact List.perm_append_singleton questions lists |>.trans (h.brought.cons questions)
  case nonempty =>
    intro list hlist
    rcases List.mem_append.mp hlist with hold | hnew
    · exact h.nonempty list hold
    · rw [List.mem_singleton.mp hnew]
      exact hsome
  case own => exact (List.nodup_append.mp hnodup).2.1
  case unused =>
    intro id hid
    rw [Bool.eq_false_iff]
    intro hnow
    rcases (hthere id).mp hnow with hold | hnew
    · exact Bool.eq_false_iff.mp (h.unused id (List.mem_append_right ids hid)) hold
    · exact (List.disjoint_of_nodup_append hnodup) hnew hid
  case given =>
    rintro id (hid | hnow)
    · exact h.given id (.inl (List.mem_append_right ids hid))
    · rcases (hthere id).mp hnow with hold | hnew
      · exact h.given id (.inr hold)
      · exact h.given id (.inl (List.mem_append_left _ hnew))
  case agree =>
    intro stage hstage
    rcases List.mem_cons.mp hstage with rfl | hrest
    · exact h.agree (.missed ids) List.mem_cons_self
    · exact (h.agree stage (List.mem_cons_of_mem _ hrest)).add questions

/-- A call has its question answered and comes to its next stage. -/
theorem turn {β : Type} {m m' : Moment Generating} {r : QuestionRequest} {stage : Stage}
    {questions : List Question} {op : Effect β} {K : β → Stage → Prop} {b : β}
    (h : Fits key before (stage :: stages) m lists) (hkey : r.key = key)
    (hyields : r.Yields questions) (hasks : (r.tracking questions).asking op K stage)
    (hb : (Surroundings.generating r.generator).answers op m b m') :
    ∃ stage' lists', Fits key before (stage' :: stages) m' lists' ∧ K b stage' := by
  obtain ⟨s, x⟩ := m
  obtain ⟨s', x'⟩ := m'
  cases stage with
  | begun =>
    cases op with
    | transact t =>
      obtain ⟨hrun, hx⟩ := hb
      obtain rfl : x' = x := hx
      obtain ⟨o, hlook, hK⟩ := hasks s _ (hkey ▸ h.kept)
      obtain ⟨rfl, rfl⟩ := Prod.mk.inj (hlook.symm.trans hrun)
      exact ⟨_, lists, h.look, hK⟩
    | _ => exact hasks.elim
  | missed ids =>
    cases op with
    | transact t =>
      obtain ⟨hrun, hx⟩ := hb
      obtain rfl : x' = x := hx
      have hown : (ids ++ stages.flatMap Stage.ids).Nodup := h.own
      obtain ⟨o, now, named, hadd, hids, hnamed, hK⟩ := hasks s (List.nodup_append.mp hown).1
        fun id hid => h.unused id (List.mem_append_left _ hid)
      obtain ⟨rfl, rfl⟩ := Prod.mk.inj (hadd.symm.trans hrun)
      exact ⟨_, _, h.add hkey hids hnamed hyields.2, hK⟩
    | generate text p =>
      obtain ⟨hs, rfl, hx⟩ := hb
      obtain rfl : s' = s := hs
      obtain rfl : x' = { x with asked := x.asked ++ [(text, p)] } := hx
      exact ⟨_, lists, h.wait rfl, hasks⟩
    | clock =>
      obtain ⟨rfl, rfl⟩ := hb
      exact ⟨_, lists, h, hasks b⟩
    | freshId =>
      obtain ⟨hs, hid, hx⟩ := hb
      obtain rfl : s' = s := hs
      obtain rfl : x' = { x with ids := x.ids ++ [b] } := hx
      exact ⟨_, lists, h.name hid rfl, hasks b⟩
    | _ => exact hasks.elim
  | added questions => cases op <;> exact hasks.elim
  | found questions => cases op <;> exact hasks.elim

end Fits

/-! ### Calls that take turns -/

/-- One of some calls, and one of their stages. -/
theorem Tracked.split {key : QuestionRequest.Key} {left right : List CacheCall} {call : CacheCall}
    {stages : List Stage} (h : Tracked key (left ++ call :: right) stages) :
    ∃ before stage after, stages = before ++ stage :: after ∧ Tracked key [call] [stage] ∧
      ∀ call' stage', Tracked key [call'] [stage'] →
        Tracked key (left ++ call' :: right) (before ++ stage' :: after) := by
  induction left generalizing stages with
  | nil =>
    cases h with
    | @cons _ stage _ after hcall hright =>
      exact ⟨[], stage, after, rfl, .cons hcall .nil, fun _ _ h' => List.rel_append h' hright⟩
  | cons other left ih =>
    cases h with
    | cons hother hrest =>
      obtain ⟨before, stage, after, rfl, hcall, hput⟩ := ih hrest
      exact ⟨_ :: before, stage, after, rfl, hcall, fun _ _ h' => .cons hother (hput _ _ h')⟩

/-- Calls of a key are at some stages, and the store fits them. -/
def Running (key : QuestionRequest.Key) (before : List Question) (o : Overlap) : Prop :=
  ∃ stages lists, Tracked key o.calls stages ∧ Fits key before stages o.moment lists

section Running
variable {key : QuestionRequest.Key} {before : List Question} {o o' : Overlap}

theorem Running.turn (h : Running key before o) (hturn : Turn o o') : Running key before o' := by
  obtain ⟨stages, lists, htracked, hfits⟩ := h
  cases hturn with
  | answer m m' left right r op next b hb =>
    obtain ⟨earlier, stage, later, rfl, hcall, hput⟩ := Tracked.split htracked
    cases hcall with
    | cons hcall _ =>
      obtain ⟨hkey, questions, hyields, hasks⟩ := hcall
      obtain ⟨stage', lists', hfits', hleads⟩ :=
        (hfits.perm List.perm_middle).turn hkey hyields hasks hb
      exact ⟨_, lists', hput _ stage' (.cons ⟨hkey, questions, hyields, hleads⟩ .nil),
        hfits'.perm List.perm_middle.symm⟩

theorem Running.turns (h : Running key before o) (hturns : Relation.ReflTransGen Turn o o') :
    Running key before o' := by
  induction hturns with
  | refl => exact h
  | tail _ hturn ih => exact ih.turn hturn

/-- The calls begin. -/
theorem Running.start {m : Moment Generating} {requests : List QuestionRequest}
    (hrequests : ∀ r ∈ requests, r.key = key ∧ r.refusal? = none ∧ ∃ questions, r.Yields questions)
    (hkept : List.Forall₂ ArtifactRow.Holds (m.1.kept key) before)
    (hgiven : ∀ a ∈ m.1.artifacts, a.id ∈ m.2.ids) : Running key before (start m requests) := by
  refine ⟨requests.map fun _ => .begun, [], ?_, ?_⟩
  · refine List.forall₂_map_left_iff.mpr (List.forall₂_map_right_iff.mpr ?_)
    refine List.forall₂_same.mpr fun r hr => ?_
    obtain ⟨hkey, hallowed, questions, hyields⟩ := hrequests r hr
    exact ⟨hkey, questions, hyields, QuestionRequest.tracked hallowed hyields⟩
  · have hids : (requests.map fun _ => Stage.begun).flatMap Stage.ids = [] := by
      simp [Stage.ids]
    have hnone : ∀ id, id ∉ (requests.map fun _ => Stage.begun).flatMap Stage.ids := by
      rw [hids]
      exact fun _ => List.not_mem_nil
    refine ⟨?_, ?_, by simp, hids ▸ List.nodup_nil, fun id hid => absurd hid (hnone id), ?_, ?_⟩
    · rw [List.flatten_nil, List.append_nil]
      exact hkept
    · simp [Stage.brought?]
    · rintro id (hid | hthere)
      · exact absurd hid (hnone id)
      · obtain ⟨a, ha, hsame⟩ := List.any_eq_true.mp hthere
        exact beq_iff_eq.mp hsame ▸ hgiven a ha
    · intro stage hstage
      obtain ⟨_, -, rfl⟩ := List.mem_map.mp hstage
      trivial

/-! ### Calls that are done -/

/-- The answers of calls that are done are told by their stages. -/
theorem Tracked.answers {calls : List CacheCall} {stages : List Stage}
    (h : Tracked key calls stages) (hdone : ∀ call ∈ calls, ∃ answer, call.2 = .done answer) :
    ∃ answers : List CachedQuestions,
      calls.map (·.2) = answers.map (fun a => .done (.ok a)) ∧
      answers.map some = stages.map (Stage.answer? key.fingerprint) := by
  induction h with
  | nil => exact ⟨[], rfl, rfl⟩
  | @cons call stage calls stages hcall _ ih =>
    obtain ⟨answers, hcalls, hstages⟩ := ih fun other hother => hdone other (.tail call hother)
    obtain ⟨answer, hanswer⟩ := hdone call List.mem_cons_self
    obtain ⟨hkey, questions, -, hleads⟩ := hcall
    rw [hanswer] at hleads
    obtain ⟨c, hc, rfl⟩ := hleads
    rw [hkey] at hc
    refine ⟨c :: answers, ?_, ?_⟩
    · rw [List.map_cons, List.map_cons, hcalls, hanswer]
    · rw [List.map_cons, List.map_cons, hstages, hc]

/-- The lists that calls have brought are the answers of those that have found nothing. -/
theorem brought_of_answers {fingerprint : String} {stages : List Stage}
    {answers : List CachedQuestions}
    (h : answers.map some = stages.map (Stage.answer? fingerprint)) :
    stages.filterMap Stage.brought? = (answers.filter (! ·.hit)).map (·.questions) := by
  induction stages generalizing answers with
  | nil =>
    rw [List.map_nil, List.map_eq_nil_iff] at h
    rw [h]
    rfl
  | cons stage stages ih =>
    rw [List.map_cons, List.map_eq_cons_iff] at h
    obtain ⟨c, rest, rfl, hc, hrest⟩ := h
    rw [List.filterMap_cons, ih hrest]
    cases stage with
    | begun => cases hc
    | missed ids => cases hc
    | added questions =>
      cases hc
      rfl
    | found questions =>
      cases hc
      rfl

end Running

/-- A call goes on while the others wait. -/
theorem turns_of_reaches {r : QuestionRequest} {f g : Flow (Except GenerationError CachedQuestions)}
    {m m' : Moment Generating} (left right : List CacheCall)
    (h : (Surroundings.generating r.generator).Reaches f m g m') :
    Relation.ReflTransGen Turn ⟨m, left ++ (r, f) :: right⟩ ⟨m', left ++ (r, g) :: right⟩ :=
  h.lift Turn (fun f m => ⟨m, left ++ (r, f) :: right⟩) fun op next m b n hb =>
    .answer m n left right r op next b hb

/-- No call joins the others, and none leaves them. -/
theorem turns_length {o o' : Overlap} (h : Relation.ReflTransGen Turn o o') :
    o'.calls.length = o.calls.length := by
  induction h with
  | refl => rfl
  | tail _ hturn ih =>
    cases hturn
    rw [← ih]
    simp

/-- Whatever has happened, all calls can come to their end. -/
theorem exists_end (left right : List CacheCall) (m : Moment Generating)
    (hleft : ∀ call ∈ left, ∃ answer, call.2 = .done answer) :
    ∃ o, Relation.ReflTransGen Turn ⟨m, left ++ right⟩ o ∧
      ∀ call ∈ o.calls, ∃ answer, call.2 = .done answer := by
  induction right generalizing left m with
  | nil =>
    rw [List.append_nil]
    exact ⟨_, .refl, hleft⟩
  | cons call rest ih =>
    obtain ⟨r, f⟩ := call
    obtain ⟨answer, m', hrun⟩ :=
      Surroundings.Live.runs (Surroundings.generating_live r.generator) f m
    obtain ⟨o, hturns, hdone⟩ := ih (left ++ [(r, .done answer)]) m' (by
      intro call hcall
      rcases List.mem_append.mp hcall with hold | hnew
      · exact hleft call hold
      · rw [List.mem_singleton.mp hnew]
        exact ⟨answer, rfl⟩)
    rw [List.append_assoc] at hturns
    exact ⟨o, (turns_of_reaches left rest hrun.reaches).trans hturns, hdone⟩

/-! ### What the calls leave -/

section Ends
variable {key : QuestionRequest.Key} {before : List Question} {m : Moment Generating}
  {stages : List Stage} {lists : List (List Question)}

/-- What was brought is at a stage; and there was nothing before. -/
theorem Fits.mem_lists (h : Fits key before stages m lists) (questions : List Question) :
    questions ∈ lists ↔ Stage.added questions ∈ stages := by
  rw [h.brought.mem_iff, List.mem_filterMap]
  constructor
  · rintro ⟨stage, hstage, hbrought⟩
    cases stage with
    | added found =>
      cases hbrought
      exact hstage
    | _ => cases hbrought
  · exact fun hstage => ⟨_, hstage, rfl⟩

theorem Fits.before_eq_nil (h : Fits key before stages m lists) (hsome : lists ≠ []) :
    before = [] := by
  obtain ⟨questions, hmem⟩ := List.exists_mem_of_ne_nil lists hsome
  exact h.agree (.added questions) ((h.mem_lists questions).mp hmem)

/-- If at most one call has brought something, each of them answers with what is kept now. -/
theorem Fits.answer_eq (h : Fits key before stages m lists) (hone : lists.length ≤ 1)
    {stage : Stage} (hstage : stage ∈ stages) {fingerprint : String} {c : CachedQuestions}
    (hc : stage.answer? fingerprint = some c) : c.questions = before ++ lists.flatten := by
  cases stage with
  | begun => cases hc
  | missed ids => cases hc
  | added questions =>
    cases hc
    have hmem : questions ∈ lists := (h.mem_lists questions).mpr hstage
    rw [h.before_eq_nil (List.ne_nil_of_mem hmem), List.nil_append]
    obtain ⟨list, rfl⟩ := List.length_eq_one_iff.mp
      (Nat.le_antisymm hone (List.length_pos_of_mem hmem))
    rw [List.mem_singleton.mp hmem, List.flatten_singleton]
  | found questions =>
    cases hc
    obtain ⟨hsome, first, hfirst, rfl⟩ := h.agree _ hstage
    by_cases hnone : lists = []
    · rw [hnone, List.prefix_nil] at hfirst
      rw [hfirst, hnone]
    · -- A call has brought something, so there was nothing before and all of it was found.
      have hbefore := h.before_eq_nil hnone
      have hlength : lists.length ≤ first.length := by
        refine Nat.le_trans hone (List.length_pos_iff.mpr fun hempty => hsome ?_)
        rw [hbefore, hempty]
        rfl
      rw [hfirst.eq_of_length_le hlength]

/-- If several calls have brought something, none of their lists is what is kept now. -/
theorem Fits.answer_ne (h : Fits key before stages m lists) (hmore : 2 ≤ lists.length)
    {questions : List Question} (hmem : questions ∈ lists) :
    questions ≠ before ++ lists.flatten := by
  intro hsame
  have hnil : ∀ part, part ⊆ lists → part.flatten = [] → part = [] := by
    intro part hpart hflat
    refine List.eq_nil_iff_forall_not_mem.mpr fun list hlist => ?_
    exact h.nonempty list (hpart hlist) (List.flatten_eq_nil_iff.mp hflat list hlist)
  obtain ⟨earlier, later, rfl⟩ := List.append_of_mem hmem
  have hlengths := congrArg List.length hsame
  simp only [List.length_append, List.flatten_append, List.flatten_cons] at hlengths
  have hearlier : earlier = [] := hnil earlier (List.subset_append_left _ _)
    (List.length_eq_zero_iff.mp (by omega))
  have hlater : later = [] := hnil later
    (fun list hlist => List.mem_append_right _ (List.mem_cons_of_mem _ hlist))
    (List.length_eq_zero_iff.mp (by omega))
  rw [hearlier, hlater] at hmore
  exact absurd hmore (by simp)

/-- No call answers with nothing. -/
theorem Fits.answer_ne_nil (h : Fits key before stages m lists) {stage : Stage}
    (hstage : stage ∈ stages) {fingerprint : String} {c : CachedQuestions}
    (hc : stage.answer? fingerprint = some c) : c.questions ≠ [] := by
  cases stage with
  | begun => cases hc
  | missed ids => cases hc
  | added questions =>
    cases hc
    exact h.nonempty questions ((h.mem_lists questions).mpr hstage)
  | found questions =>
    cases hc
    exact (h.agree _ hstage).1

/-- Once a call has answered, something is kept. -/
theorem Fits.kept_ne_nil (h : Fits key before stages m lists) {stage : Stage}
    (hstage : stage ∈ stages) {fingerprint : String} {c : CachedQuestions}
    (hc : stage.answer? fingerprint = some c) : before ++ lists.flatten ≠ [] := by
  intro hnil
  obtain ⟨hbefore, hflat⟩ := List.append_eq_nil_iff.mp hnil
  have hlists : lists = [] := by
    refine List.eq_nil_iff_forall_not_mem.mpr fun list hlist => ?_
    exact h.nonempty list hlist (List.flatten_eq_nil_iff.mp hflat list hlist)
  have hanswer := h.answer_eq (by simp [hlists]) hstage hc
  exact h.answer_ne_nil hstage hc (hanswer.trans hnil)

end Ends

/-- What calls of a key leave when all of them are done: behind what was there before, the lists of
all that had found nothing, in the order in which they were added. -/
structure Settled (key : QuestionRequest.Key) (before : List Question) (m : Moment Generating)
    (answers : List CachedQuestions) (lists : List (List Question)) : Prop where
  kept : List.Forall₂ ArtifactRow.Holds (m.1.kept key) (before ++ lists.flatten)
  some : before ++ lists.flatten ≠ []
  missed : lists.Perm ((answers.filter (! ·.hit)).map (·.questions))
  alone : lists ≠ [] → before = []
  agree : lists.length ≤ 1 → ∀ c ∈ answers, c.questions = before ++ lists.flatten
  differ : 2 ≤ lists.length → ∀ c ∈ answers, c.hit = false → c.questions ≠ before ++ lists.flatten

theorem Running.settled {key : QuestionRequest.Key} {before : List Question} {o : Overlap}
    (h : Running key before o) (hsome : o.calls ≠ [])
    (hdone : ∀ call ∈ o.calls, ∃ answer, call.2 = .done answer) :
    ∃ answers lists, o.Done answers ∧ Settled key before o.moment answers lists := by
  obtain ⟨stages, lists, htracked, hfits⟩ := h
  obtain ⟨answers, hanswers, hstages⟩ := htracked.answers hdone
  have hmissed : lists.Perm ((answers.filter (! ·.hit)).map (·.questions)) :=
    brought_of_answers hstages ▸ hfits.brought
  have hstage : ∀ c ∈ answers, ∃ stage ∈ stages, stage.answer? key.fingerprint = some c := by
    intro c hc
    have hmem := List.mem_map_of_mem (f := some) hc
    rw [hstages] at hmem
    exact List.mem_map.mp hmem
  have hany : ∃ c, c ∈ answers := by
    refine List.exists_mem_of_ne_nil answers fun hnone => hsome ?_
    rw [hnone, List.map_nil, List.map_eq_nil_iff] at hanswers
    exact hanswers
  refine ⟨answers, lists, hanswers, hfits.kept, ?_, hmissed, hfits.before_eq_nil, ?_, ?_⟩
  · obtain ⟨c, hc⟩ := hany
    obtain ⟨stage, hmem, hanswer⟩ := hstage c hc
    exact hfits.kept_ne_nil hmem hanswer
  · intro hone c hc
    obtain ⟨stage, hmem, hanswer⟩ := hstage c hc
    exact hfits.answer_eq hone hmem hanswer
  · intro hmore c hc hmiss
    refine hfits.answer_ne hmore (hmissed.mem_iff.mpr (List.mem_map.mpr ⟨c, ?_, rfl⟩))
    exact List.mem_filter.mpr ⟨hc, by rw [hmiss]; rfl⟩

/-- A later call of the key finds all that is kept, and changes nothing. -/
theorem runs_kept_iff {key : QuestionRequest.Key} {m : Moment Generating} {questions : List Question}
    (hkept : List.Forall₂ ArtifactRow.Holds (m.1.kept key) questions) (hsome : questions ≠ [])
    {r : QuestionRequest} (hkey : r.key = key) (hallowed : r.refusal? = none)
    (answer : Except GenerationError CachedQuestions) (m' : Moment Generating) :
    (Surroundings.generating r.generator).Runs r.run.run m answer m' ↔
      answer = .ok ⟨key.fingerprint, questions, true⟩ ∧ m' = m := by
  subst hkey
  have hends : ∀ answer m', (Surroundings.generating r.generator).Runs r.run.run m answer m' →
      answer = .ok ⟨r.fingerprint, questions, true⟩ ∧ m' = m := by
    have hleads : Run.Leads ((Surroundings.generating r.generator).keeping fun _ => True)
        (fun c m' => (Except.ok c : Except GenerationError CachedQuestions) =
          .ok ⟨r.fingerprint, questions, true⟩ ∧ m' = m)
        (fun e m' => (Except.error e : Except GenerationError CachedQuestions) =
          .ok ⟨r.fingerprint, questions, true⟩ ∧ m' = m) r.run m :=
      QuestionRequest.leads_kept hallowed hkept hsome ⟨rfl, rfl⟩
    exact ((Surroundings.leads_iff r.run.run m trivial).mp (Run.Leads.iff_run.mp hleads)).2
  refine ⟨hends answer m', ?_⟩
  rintro ⟨rfl, rfl⟩
  obtain ⟨answer, m', hrun⟩ :=
    Surroundings.Live.runs (Surroundings.generating_live r.generator) r.run.run m'
  obtain ⟨rfl, rfl⟩ := hends answer m' hrun
  exact hrun

end Overlap

/-- Calls of one key may overlap in any way: they can all come to their end, and then what is kept
is settled. -/
theorem overlapping_calls_settle {key : QuestionRequest.Key} {before : List Question}
    {m : Moment Generating} {requests : List QuestionRequest} (hsome : requests ≠ [])
    (hrequests : ∀ r ∈ requests, r.key = key ∧ r.refusal? = none ∧ ∃ questions, r.Yields questions)
    (hkept : List.Forall₂ ArtifactRow.Holds (m.1.kept key) before)
    (hgiven : ∀ a ∈ m.1.artifacts, a.id ∈ m.2.ids) {o : Overlap}
    (hturns : Relation.ReflTransGen Overlap.Turn (.start m requests) o) :
    (∃ o', Relation.ReflTransGen Overlap.Turn o o' ∧
      ∀ call ∈ o'.calls, ∃ answer, call.2 = .done answer) ∧
    ((∀ call ∈ o.calls, ∃ answer, call.2 = .done answer) →
      ∃ answers lists, o.Done answers ∧ Overlap.Settled key before o.moment answers lists) := by
  have hrunning := (Overlap.Running.start hrequests hkept hgiven).turns hturns
  have hcalls : o.calls ≠ [] := by
    rw [← List.length_pos_iff, Overlap.turns_length hturns, Overlap.start, List.length_map,
      List.length_pos_iff]
    exact hsome
  exact ⟨Overlap.exists_end [] o.calls o.moment (by simp), hrunning.settled hcalls⟩

/-- Two lists can be ordered in two ways. -/
theorem Overlap.eq_of_perm_pair {α : Type} {l : List α} {a b : α} (h : l.Perm [a, b]) :
    l = [a, b] ∨ l = [b, a] := by
  obtain ⟨x, y, rfl⟩ := List.length_eq_two.mp h.length_eq
  rcases List.mem_pair.mp (h.mem_iff.mp List.mem_cons_self) with rfl | rfl
  · rw [List.perm_singleton.mp (List.Perm.cons_inv h)]
    exact .inl rfl
  · rw [List.perm_singleton.mp (List.Perm.cons_inv (h.trans (List.Perm.swap x a [])))]
    exact .inr rfl

/-- Two calls of a key may overlap in any way. They can come to their end, and then each later call
is answered with what is kept, and changes nothing. If one of the two has found something, both have
the same answer, and later calls as well. If both have found nothing, later calls are answered with
the two lists, one behind the other, which is neither of them. -/
theorem overlapping_pair_settles {key : QuestionRequest.Key} {before : List Question}
    {m : Moment Generating} {r₁ r₂ : QuestionRequest}
    (hr₁ : r₁.key = key ∧ r₁.refusal? = none ∧ ∃ questions, r₁.Yields questions)
    (hr₂ : r₂.key = key ∧ r₂.refusal? = none ∧ ∃ questions, r₂.Yields questions)
    (hkept : List.Forall₂ ArtifactRow.Holds (m.1.kept key) before)
    (hgiven : ∀ a ∈ m.1.artifacts, a.id ∈ m.2.ids) {o : Overlap}
    (hturns : Relation.ReflTransGen Overlap.Turn (.start m [r₁, r₂]) o) :
    (∃ o', Relation.ReflTransGen Overlap.Turn o o' ∧
      ∀ call ∈ o'.calls, ∃ answer, call.2 = .done answer) ∧
    ((∀ call ∈ o.calls, ∃ answer, call.2 = .done answer) →
      ∃ c₁ c₂ later, o.Done [c₁, c₂] ∧
        (∀ r : QuestionRequest, r.key = key → r.refusal? = none → ∀ answer m',
          (Surroundings.generating r.generator).Runs r.run.run o.moment answer m' ↔
            answer = .ok ⟨key.fingerprint, later, true⟩ ∧ m' = o.moment) ∧
        (c₁.hit = true ∨ c₂.hit = true → c₁.questions = later ∧ c₂.questions = later) ∧
        (c₁.hit = false ∧ c₂.hit = false →
          later = c₁.questions ++ c₂.questions ∨ later = c₂.questions ++ c₁.questions) ∧
        (later = c₁.questions ∨ later = c₂.questions ↔ c₁.hit = true ∨ c₂.hit = true)) := by
  have hrequests : ∀ r ∈ [r₁, r₂],
      r.key = key ∧ r.refusal? = none ∧ ∃ questions, r.Yields questions := by
    rw [List.forall_mem_cons, List.forall_mem_singleton]
    exact ⟨hr₁, hr₂⟩
  obtain ⟨hend, hsettles⟩ :=
    overlapping_calls_settle (List.cons_ne_nil r₁ [r₂]) hrequests hkept hgiven hturns
  refine ⟨hend, fun hdone => ?_⟩
  obtain ⟨answers, lists, hanswers, hsettled⟩ := hsettles hdone
  have hlength : answers.length = 2 := by
    have hlengths := congrArg List.length hanswers
    rw [List.length_map, List.length_map, Overlap.turns_length hturns] at hlengths
    exact hlengths.symm
  obtain ⟨c₁, c₂, rfl⟩ := List.length_eq_two.mp hlength
  have hmissed := hsettled.missed
  refine ⟨c₁, c₂, before ++ lists.flatten, hanswers,
    fun r hkey hallowed => Overlap.runs_kept_iff hsettled.kept hsettled.some hkey hallowed, ?_⟩
  cases h₁ : c₁.hit with
  | true =>
    have hone : lists.length ≤ 1 := by
      rw [hmissed.length_eq, List.length_map, List.filter_cons_of_neg (by simp [h₁])]
      exact List.length_filter_le _ _
    have hsame := hsettled.agree hone
    rw [List.forall_mem_cons, List.forall_mem_singleton] at hsame
    exact ⟨fun _ => hsame, fun hmiss => Bool.noConfusion hmiss.1, fun _ => .inl rfl,
      fun _ => .inl hsame.1.symm⟩
  | false =>
    cases h₂ : c₂.hit with
    | true =>
      have hone : lists.length ≤ 1 := by
        rw [hmissed.length_eq, List.length_map]
        simp [h₁, h₂]
      have hsame := hsettled.agree hone
      rw [List.forall_mem_cons, List.forall_mem_singleton] at hsame
      exact ⟨fun _ => hsame, fun hmiss => Bool.noConfusion hmiss.2, fun _ => .inr rfl,
        fun _ => .inl hsame.1.symm⟩
    | false =>
      have hpair : lists.Perm [c₁.questions, c₂.questions] := by
        simpa [h₁, h₂] using hmissed
      have hmore : 2 ≤ lists.length := Nat.le_of_eq hpair.length_eq.symm
      have hdiffer := hsettled.differ hmore
      rw [List.forall_mem_cons, List.forall_mem_singleton] at hdiffer
      have hsome : lists ≠ [] := List.ne_nil_of_length_pos (Nat.lt_of_lt_of_le Nat.zero_lt_two hmore)
      rw [hsettled.alone hsome, List.nil_append] at hdiffer ⊢
      refine ⟨fun hhit => ?_, fun _ => ?_, fun hsame => ?_, fun hhit => ?_⟩
      · rcases hhit with hhit | hhit <;> cases hhit
      · rcases Overlap.eq_of_perm_pair hpair with rfl | rfl
        · exact .inl (by simp)
        · exact .inr (by simp)
      · rcases hsame with hsame | hsame
        · exact absurd hsame.symm (hdiffer.1 h₁)
        · exact absurd hsame.symm (hdiffer.2 h₂)
      · rcases hhit with hhit | hhit <;> cases hhit

/-! Two calls with one question each. -/
namespace Doubled

def question (text : String) : Question := ⟨text, [], "", none⟩

def call (text : String) : QuestionRequest :=
  ⟨"ann", none, "a text", .standard, fun _ _ => .ok [question text]⟩

def start : Moment Generating := (Store.empty, ⟨[], []⟩)

theorem allowed (text : String) : (call text).key = (call "").key ∧ (call text).refusal? = none ∧
    ∃ questions, (call text).Yields questions :=
  ⟨rfl, show (call "").refusal? = none by decide +kernel, _, rfl, List.cons_ne_nil _ _⟩

/-- A call looks into the empty store and waits for its generator. -/
theorem looks (text : String) :
    (Surroundings.generating (call text).generator).Reaches (call text).run.run start
      ((call text).answer []).run start := by
  rw [QuestionRequest.run_eq_of_allowed (allowed text).2.1]
  have hfind : (Artifacts.find (call text).ownerId (call text).fingerprint).run Store.empty =
      (.ok [], Store.empty) := rfl
  exact .inr ⟨.ok [], start, ⟨hfind, rfl⟩, .refl _ _⟩

/-- The row that a call adds. -/
def row (text id : String) : List ArtifactRow := (call text).rows ⟨0, 0⟩ [(id, question text)]

/-- The call goes on to its end. -/
theorem adds (text id : String) (s : Store) (x : Generating) (hid : id ∉ x.ids)
    (hnew : s.hasArtifact id = false) :
    (Surroundings.generating (call text).generator).Runs ((call text).answer []).run (s, x)
      (.ok ⟨(call text).fingerprint, [question text], false⟩)
      ({ s with artifacts := s.artifacts ++ row text id },
        ⟨x.ids ++ [id], x.asked ++ [("a text", .standard)]⟩) := by
  have hinsert : (Artifacts.insertAll (QuestionCache.artifactsOf (call text).ownerId
      (call text).documentId (call text).fingerprint (call text).params
      (⟨0, 0⟩ : Instant).timestamp [(id, question text)])).run s =
        (.ok (), { s with artifacts := s.artifacts ++ row text id }) :=
    QuestionRequest.insert_rows (List.nodup_singleton id) (List.forall_mem_singleton.mpr hnew)
  let asked : List (String × QuestionParams) := x.asked ++ [("a text", .standard)]
  exact ⟨.ok [question text], (s, ⟨x.ids, asked⟩), ⟨rfl, rfl, rfl⟩,
    ⟨0, 0⟩, (s, ⟨x.ids, asked⟩), ⟨rfl, rfl⟩, id, (s, ⟨x.ids ++ [id], asked⟩), ⟨rfl, hid, rfl⟩,
    .ok (), (_, ⟨x.ids ++ [id], asked⟩), ⟨hinsert, rfl⟩, rfl, rfl⟩

/-- Both calls have looked before one of them adds its question. -/
def done : Overlap where
  moment := ({ Store.empty with artifacts := row "Who?" "1" ++ row "Why?" "2" },
    ⟨["1", "2"], [("a text", .standard), ("a text", .standard)]⟩)
  calls := [(call "Who?", .done (.ok ⟨(call "Who?").fingerprint, [question "Who?"], false⟩)),
    (call "Why?", .done (.ok ⟨(call "Why?").fingerprint, [question "Why?"], false⟩))]

theorem turns : Relation.ReflTransGen Overlap.Turn (.start start [call "Who?", call "Why?"]) done := by
  have hlooks := (Overlap.turns_of_reaches [] [(call "Why?", _)] (looks "Who?")).trans
    (Overlap.turns_of_reaches [(call "Who?", _)] [] (looks "Why?"))
  have hfirst := adds "Who?" "1" Store.empty ⟨[], []⟩ List.not_mem_nil rfl
  have hsecond := adds "Why?" "2" { Store.empty with artifacts := row "Who?" "1" }
    ⟨["1"], [("a text", .standard)]⟩ (by simp) (by decide +kernel)
  exact (hlooks.trans (Overlap.turns_of_reaches [] [(call "Why?", _)] hfirst.reaches)).trans
    (Overlap.turns_of_reaches [(call "Who?", _)] [] hsecond.reaches)

/-- What is kept afterwards. -/
theorem kept : List.Forall₂ ArtifactRow.Holds (done.moment.1.kept (call "").key)
    [question "Who?", question "Why?"] := by
  have hkept : done.moment.1.kept (call "").key = row "Who?" "1" ++ row "Why?" "2" := by
    unfold Store.kept Store.entry
    show List.filter _ (row "Who?" "1" ++ row "Why?" "2") = _
    rw [List.filter_append]
    exact congrArg₂ (· ++ ·) ((QuestionRequest.entry_rows (call "")).trans (if_pos ⟨rfl, rfl⟩))
      ((QuestionRequest.entry_rows (call "")).trans (if_pos ⟨rfl, rfl⟩))
  rw [hkept]
  exact List.rel_append (QuestionRequest.holds_rows (r := call "Who?"))
    (QuestionRequest.holds_rows (r := call "Why?"))

end Doubled

/-- Two calls overlap and are answered with one question each; a later call is answered with both
questions. -/
theorem overlapping_misses_concatenate :
    ∃ o, Relation.ReflTransGen Overlap.Turn
        (.start Doubled.start [Doubled.call "Who?", Doubled.call "Why?"]) o ∧
      o.Done [⟨(Doubled.call "").fingerprint, [Doubled.question "Who?"], false⟩,
        ⟨(Doubled.call "").fingerprint, [Doubled.question "Why?"], false⟩] ∧
      (Surroundings.generating (Doubled.call "").generator).Runs (Doubled.call "").run.run o.moment
        (.ok ⟨(Doubled.call "").fingerprint,
          [Doubled.question "Who?", Doubled.question "Why?"], true⟩) o.moment ∧
      [Doubled.question "Who?", Doubled.question "Why?"] ≠ [Doubled.question "Who?"] ∧
      [Doubled.question "Who?", Doubled.question "Why?"] ≠ [Doubled.question "Why?"] := by
  refine ⟨Doubled.done, Doubled.turns, rfl, ?_, by simp, by simp⟩
  exact (Overlap.runs_kept_iff Doubled.kept (List.cons_ne_nil _ _) rfl (Doubled.allowed "").2.1
    _ _).mpr ⟨rfl, rfl⟩

/-- The same two calls, in whichever way they overlap. -/
theorem overlapping_pair_settles_empty :
    ∃ o c₁ c₂ later, Relation.ReflTransGen Overlap.Turn
        (.start Doubled.start [Doubled.call "Who?", Doubled.call "Why?"]) o ∧
      o.Done [c₁, c₂] ∧
      ((later = c₁.questions ∨ later = c₂.questions) ↔ c₁.hit = true ∨ c₂.hit = true) := by
  obtain ⟨⟨o, hturns, hdone⟩, -⟩ := overlapping_pair_settles (Doubled.allowed "Who?")
    (Doubled.allowed "Why?") .nil (fun a ha => absurd ha List.not_mem_nil)
    (m := Doubled.start) .refl
  obtain ⟨c₁, c₂, later, hcalls, -, -, -, hiff⟩ := (overlapping_pair_settles
    (Doubled.allowed "Who?") (Doubled.allowed "Why?") .nil
    (fun a ha => absurd ha List.not_mem_nil) hturns).2 hdone
  exact ⟨o, c₁, c₂, later, hturns, hcalls, hiff⟩

end Quire
