import Quire.Proofs.Credential.Exchange

/-! What a token cache gives.

All exchanges and invalidations are noted. The token that stands is the one exchanged last, if it has
not been invalidated since, and it is this one that a cache holds, whatever it is asked
(`sound_after`). So a caller gets it while more than the margin is left of it and one from an
exchange else, and of callers who come together the first one exchanges for all. Only at a token
that expires as soon as the calendar begins is a run broken off (`outworn_token_breaks`). -/
namespace Quire.Credential

/-! ### Tokens that last -/

namespace AccessToken

/-- More than the margin is left. -/
def Lasts (t : AccessToken) (now : Instant) : Prop :=
  (now.after TokenCache.margin).before t.expiresAt = true

/-- There is an instant that lies the margin before the end. -/
def HasDue (t : AccessToken) : Prop := (t.expiresAt.after ⟨-TokenCache.margin.seconds⟩).InCalendar

instance (t : AccessToken) (now : Instant) : Decidable (t.Lasts now) :=
  inferInstanceAs (Decidable (_ = true))

instance (t : AccessToken) : Decidable t.HasDue := inferInstanceAs (Decidable (Instant.InCalendar _))

variable {t : AccessToken} {now last : Instant}

theorem lasts_iff : t.Lasts now ↔
    now.before (t.expiresAt.after ⟨-TokenCache.margin.seconds⟩) = true := by
  unfold Lasts
  rw [Instant.before_iff, Instant.before_iff]
  unfold Instant.after TokenCache.margin
  dsimp only
  omega

/-- What lasts at a time has lasted before. -/
theorem Lasts.earlier (h : t.Lasts last) (hnow : last.before now = false) : t.Lasts now := by
  unfold Lasts at *
  rw [← Bool.not_eq_true] at hnow
  rw [Instant.before_iff] at *
  unfold Instant.after TokenCache.margin at *
  dsimp only at *
  omega

/-- Only a token that expires as soon as the calendar begins has no such instant, and at no time does
it last. -/
theorem Lasts.hasDue (h : t.Lasts now) (hnow : now.InCalendar) (ht : t.expiresAt.InCalendar) :
    t.HasDue := by
  rw [lasts_iff, Instant.before_iff] at h
  unfold HasDue
  unfold Instant.InCalendar Instant.after TokenCache.margin at *
  dsimp only at *
  omega

end AccessToken

theorem TokenCache.look_cached {c : TokenCache} {t : AccessToken} (h : c.cached = some t)
    (now : Instant) :
    c.look now =
      if t.HasDue then if t.Lasts now then .fresh t.token else .stale else .brokenOff := by
  rw [look, h]
  dsimp only
  rw [expiry?_of_le (by decide)]
  by_cases hdue : t.HasDue
  · rw [if_pos (show Instant.InCalendar _ from hdue), if_pos hdue]
    exact if_congr AccessToken.lasts_iff.symm rfl rfl
  · rw [if_neg (show ¬ Instant.InCalendar _ from hdue), if_neg hdue]

/-! ### What has happened -/

/-- What happens to the token of a cache. -/
inductive Deed
  | exchanged (x : Exchanged)
  | invalidated

/-- The token that was exchanged last and has not been invalidated since; the newest deed comes
first. -/
def standing : List Deed → Option AccessToken
  | [] => none
  | .exchanged (.token t) :: _ => some t
  | .exchanged _ :: earlier => standing earlier
  | .invalidated :: _ => none

/-- What a cache is asked. -/
inductive Request
  | get (now : Instant)
  | invalidate

/-- A cache, and what has happened so far. -/
structure Desk where
  cache : TokenCache
  log : List Deed

/-- An exchange that is noted; what it comes to may depend on all that has happened. -/
def noted (results : List Deed → Exchanged) : StateM (List Deed) Exchanged :=
  fun log => (results log, .exchanged (results log) :: log)

namespace Desk

def opening : Desk := ⟨.empty, []⟩

/-- A caller's answer, and the desk afterwards. -/
def get (results : List Deed → Exchanged) (d : Desk) (now : Instant) :
    Option (Except AuthError String) × Desk :=
  let ((answer, cache), log) := (d.cache.get now (noted results)).run d.log
  (answer, ⟨cache, log⟩)

def serve (results : List Deed → Exchanged) (d : Desk) : Request → Desk
  | .get now => (d.get results now).2
  | .invalidate => ⟨d.cache.invalidate, .invalidated :: d.log⟩

/-- The desk after some requests, one after the other. -/
def after (results : List Deed → Exchanged) (requests : List Request) : Desk :=
  requests.foldl (serve results) opening

/-- Callers one after the other. -/
def getAll (results : List Deed → Exchanged) (d : Desk) :
    List Instant → List (Option (Except AuthError String)) × Desk
  | [] => ([], d)
  | now :: later =>
    let (answer, d) := d.get results now
    let (answers, d) := getAll results d later
    (answer :: answers, d)

variable {results : List Deed → Exchanged} {d : Desk} {t : AccessToken} {now : Instant}

/-! ### One caller -/

/-- The desk after an exchange. -/
def exchanged (d : Desk) (x : Exchanged) : Desk where
  cache := match x with
    | .token t => ⟨some t⟩
    | _ => d.cache
  log := .exchanged x :: d.log

/-- What the outcome of an exchange is told as. -/
def told : Exchanged → Option (Except AuthError String)
  | .token t => some (.ok t.token)
  | .refused e => some (.error e)
  | .brokenOff => none

theorem told_eq_ok {x : Exchanged} {token : String} (h : told x = some (.ok token)) :
    ∃ t, x = .token t ∧ t.token = token := by
  cases x with
  | token t =>
    cases h
    exact ⟨t, rfl, rfl⟩
  | refused e => cases h
  | brokenOff => cases h

theorem told_eq_none_iff {x : Exchanged} : told x = none ↔ x = .brokenOff := by
  cases x <;> simp [told]

theorem get_fresh (h : d.cache.cached = some t) (hdue : t.HasDue) (hlasts : t.Lasts now) :
    d.get results now = (some (.ok t.token), d) := by
  have hlook : d.cache.look now = .fresh t.token := by
    rw [TokenCache.look_cached h, if_pos hdue, if_pos hlasts]
  rw [get, TokenCache.get, hlook]
  rfl

theorem get_brokenOff (h : d.cache.cached = some t) (hdue : ¬ t.HasDue) :
    d.get results now = (none, d) := by
  have hlook : d.cache.look now = .brokenOff := by
    rw [TokenCache.look_cached h, if_neg hdue]
  rw [get, TokenCache.get, hlook]
  rfl

/-- The cached token, if there is one, does not last. -/
def Stale (d : Desk) (now : Instant) : Prop :=
  ∀ t, d.cache.cached = some t → t.HasDue ∧ ¬ t.Lasts now

theorem get_stale (h : d.Stale now) :
    d.get results now = (told (results d.log), d.exchanged (results d.log)) := by
  have hlook : d.cache.look now = .stale := by
    cases hcached : d.cache.cached with
    | none => rw [TokenCache.look, hcached]
    | some t =>
      obtain ⟨hdue, hpast⟩ := h t hcached
      rw [TokenCache.look_cached hcached, if_pos hdue, if_neg hpast]
  rw [get, TokenCache.get, hlook]
  have hnoted : (noted results).run d.log =
      (results d.log, .exchanged (results d.log) :: d.log) := rfl
  dsimp only
  rw [run_bind_of_run hnoted]
  cases results d.log <;> rfl

theorem get_cases (results : List Deed → Exchanged) (d : Desk) (now : Instant) :
    (∃ t, d.cache.cached = some t ∧ t.HasDue ∧ t.Lasts now ∧
      d.get results now = (some (.ok t.token), d)) ∨
    (∃ t, d.cache.cached = some t ∧ ¬ t.HasDue ∧ d.get results now = (none, d)) ∨
    d.Stale now ∧
      d.get results now = (told (results d.log), d.exchanged (results d.log)) := by
  by_cases hstale : d.Stale now
  · exact .inr (.inr ⟨hstale, get_stale hstale⟩)
  · simp only [Stale, not_forall] at hstale
    obtain ⟨t, ht, hkept⟩ := hstale
    by_cases hdue : t.HasDue
    · have hlasts : t.Lasts now := by
        by_contra hpast
        exact hkept ⟨hdue, hpast⟩
      exact .inl ⟨t, ht, hdue, hlasts, get_fresh ht hdue hlasts⟩
    · exact .inr (.inl ⟨t, ht, hdue, get_brokenOff ht hdue⟩)

/-! ### Callers who come together -/

theorem getAll_fresh (h : d.cache.cached = some t) (hdue : t.HasDue) {callers : List Instant}
    (hlasts : ∀ now ∈ callers, t.Lasts now) :
    d.getAll results callers = (List.replicate callers.length (some (.ok t.token)), d) := by
  induction callers with
  | nil => rfl
  | cons now later ih =>
    have hnow := hlasts now List.mem_cons_self
    have hlater := ih fun u hu => hlasts u (List.mem_cons_of_mem now hu)
    rw [getAll, get_fresh h hdue hnow]
    dsimp only
    rw [hlater]
    rfl

/-- The first caller finds the token stale and exchanges it, and the others get what has come of
it. -/
theorem getAll_stale (h : d.Stale now) (ht : results d.log = .token t) (hdue : t.HasDue)
    {later : List Instant} (hlasts : ∀ u ∈ later, t.Lasts u) :
    d.getAll results (now :: later) =
      (List.replicate (later.length + 1) (some (.ok t.token)), d.exchanged (.token t)) := by
  rw [getAll, get_stale h, ht]
  dsimp only
  rw [getAll_fresh rfl hdue hlasts]
  rfl

/-- Callers at the same time are callers one after the other. -/
theorem run_getEach (results : List Deed → Exchanged) (d : Desk) (now : Instant) (callers : Nat) :
    (d.cache.getEach now (noted results) callers).run d.log =
      (((d.getAll results (List.replicate callers now)).1,
        (d.getAll results (List.replicate callers now)).2.cache),
        (d.getAll results (List.replicate callers now)).2.log) := by
  induction callers generalizing d with
  | zero => rfl
  | succ callers ih =>
    have hfirst : (d.cache.get now (noted results)).run d.log =
        (((d.get results now).1, (d.get results now).2.cache), (d.get results now).2.log) := rfl
    rw [TokenCache.getEach, run_bind_of_run hfirst]
    dsimp only
    rw [run_bind_of_run (ih (d.get results now).2)]
    rfl

/-! ### All requests -/

/-- The cache holds the token that stands. -/
def Sound (d : Desk) : Prop := d.cache.cached = standing d.log

theorem Sound.exchanged (h : d.Sound) (x : Exchanged) : (d.exchanged x).Sound := by
  cases x with
  | token t => rfl
  | refused e => exact h
  | brokenOff => exact h

theorem Sound.get (h : d.Sound) (results : List Deed → Exchanged) (now : Instant) :
    (d.get results now).2.Sound := by
  rcases get_cases results d now with ⟨t, -, -, -, hget⟩ | ⟨t, -, -, hget⟩ | ⟨-, hget⟩
  · rwa [hget]
  · rwa [hget]
  · rw [hget]
    exact h.exchanged _

theorem Sound.serve (h : d.Sound) (results : List Deed → Exchanged) (r : Request) :
    (d.serve results r).Sound := by
  cases r with
  | get now => exact h.get results now
  | invalidate => rfl

theorem sound_after (results : List Deed → Exchanged) (requests : List Request) :
    (after results requests).Sound := by
  have hall : ∀ d : Desk, d.Sound → (requests.foldl (serve results) d).Sound := by
    induction requests with
    | nil => exact fun d hd => hd
    | cons r rest ih => exact fun d hd => ih _ (hd.serve results r)
  exact hall opening rfl

/-- A token stands that lasts. -/
def Lasting (log : List Deed) (now : Instant) : Prop := ∃ t, standing log = some t ∧ t.Lasts now

/-- A token stands that expires as soon as the calendar begins. -/
def Undue (log : List Deed) : Prop := ∃ t, standing log = some t ∧ ¬ t.HasDue

theorem Sound.stale_iff (h : d.Sound) :
    d.Stale now ↔ ¬ Undue d.log ∧ ¬ Lasting d.log now := by
  unfold Stale Undue Lasting
  rw [h]
  constructor
  · intro hstale
    exact ⟨fun ⟨t, ht, hundue⟩ => hundue (hstale t ht).1, fun ⟨t, ht, hlasts⟩ => (hstale t ht).2 hlasts⟩
  · rintro ⟨hdue, hpast⟩ t ht
    exact ⟨by_contra fun hundue => hdue ⟨t, ht, hundue⟩, fun hlasts => hpast ⟨t, ht, hlasts⟩⟩

/-- How a caller is served. -/
structure Serves (results : List Deed → Exchanged) (d : Desk) (now : Instant)
    (answer : Option (Except AuthError String)) (d' : Desk) : Prop where
  /-- A token comes from an exchange for this caller, or it is the one that stands. -/
  given : ∀ token, answer = some (.ok token) → ∃ t : AccessToken, t.token = token ∧
    (d'.log = .exchanged (.token t) :: d.log ∨
      d' = d ∧ standing d.log = some t ∧ t.Lasts now)
  /-- There is an exchange just if no token stands that lasts, also if it is broken off. -/
  exchanges : ¬ Undue d.log →
    (d'.log = .exchanged (results d.log) :: d.log ↔ ¬ Lasting d.log now)
  kept : d'.log ≠ .exchanged (results d.log) :: d.log → d' = d
  /-- A failure is answered and leaves the cache as it is. -/
  refused : ∀ e, d'.log = .exchanged (.refused e) :: d.log →
    answer = some (.error e) ∧ d'.cache = d.cache
  unanswered : answer = none ↔
    Undue d.log ∨ ¬ Lasting d.log now ∧ results d.log = .brokenOff

theorem ne_exchanged (log : List Deed) (x : Exchanged) : log ≠ .exchanged x :: log :=
  (List.cons_ne_self _ _).symm

/-- A caller is given the token that stands, if it lasts. -/
theorem Serves.of_standing (hstands : standing d.log = some t) (hdue : t.HasDue)
    (hlasts : t.Lasts now) : Serves results d now (some (.ok t.token)) d where
  given := by
    rintro token ⟨⟩
    exact ⟨t, rfl, .inr ⟨rfl, hstands, hlasts⟩⟩
  exchanges _ := iff_of_false (ne_exchanged _ _) (not_not.mpr ⟨t, hstands, hlasts⟩)
  kept _ := rfl
  refused _ hlog := absurd hlog (ne_exchanged _ _)
  unanswered := by
    refine iff_of_false nofun ?_
    rintro (⟨u, hu, hundue⟩ | ⟨hpast, -⟩)
    · exact hundue (Option.some.inj (hstands.symm.trans hu) ▸ hdue)
    · exact hpast ⟨t, hstands, hlasts⟩

/-- At a token that expires as soon as the calendar begins the run is broken off. -/
theorem Serves.of_undue (hundue : Undue d.log) : Serves results d now none d where
  given := nofun
  exchanges hdue := absurd hundue hdue
  kept _ := rfl
  refused _ hlog := absurd hlog (ne_exchanged _ _)
  unanswered := iff_of_true rfl (.inl hundue)

/-- Without a token that lasts there is an exchange, and the caller is told what has come of it. -/
theorem Serves.of_exchange (hdue : ¬ Undue d.log) (hpast : ¬ Lasting d.log now) :
    Serves results d now (told (results d.log)) (d.exchanged (results d.log)) where
  given token hanswer := by
    obtain ⟨t, hresult, htoken⟩ := told_eq_ok hanswer
    rw [hresult]
    exact ⟨t, htoken, .inl rfl⟩
  exchanges _ := iff_of_true rfl hpast
  kept hlog := absurd rfl hlog
  refused e hlog := by
    have hresult : results d.log = .refused e := Deed.exchanged.inj (List.cons.inj hlog).1
    rw [hresult]
    exact ⟨rfl, rfl⟩
  unanswered := by
    rw [told_eq_none_iff]
    exact ⟨fun hbroken => .inr ⟨hpast, hbroken⟩, fun hnone => hnone.elim (absurd · hdue) And.right⟩

theorem Sound.serves (h : d.Sound) (results : List Deed → Exchanged) (now : Instant) :
    Serves results d now (d.get results now).1 (d.get results now).2 := by
  rcases get_cases results d now with
    ⟨t, ht, hdue, hlasts, hget⟩ | ⟨t, ht, hundue, hget⟩ | ⟨hstale, hget⟩
  · rw [hget]
    exact .of_standing (h.symm.trans ht) hdue hlasts
  · rw [hget]
    exact .of_undue ⟨t, h.symm.trans ht, hundue⟩
  · obtain ⟨hdue, hpast⟩ := h.stale_iff.mp hstale
    rw [hget]
    exact .of_exchange hdue hpast

/-- Of callers who come together while no token stands that lasts, the last of them no later than
the new one lasts, the first exchanges for all. -/
theorem Sound.shared (h : d.Sound) {last : Instant} {later : List Instant}
    (horder : ∀ u ∈ now :: later, last.before u = false) (hlast : last.InCalendar)
    (hpast : ¬ Lasting d.log now) (hdue : ¬ Undue d.log) (hresult : results d.log = .token t)
    (hcalendar : t.expiresAt.InCalendar) (hlasts : t.Lasts last) :
    d.getAll results (now :: later) =
      (List.replicate (later.length + 1) (some (.ok t.token)), d.exchanged (.token t)) := by
  refine getAll_stale (h.stale_iff.mpr ⟨hdue, hpast⟩) hresult (hlasts.hasDue hlast hcalendar) ?_
  exact fun u hu => hlasts.earlier (horder u (List.mem_cons_of_mem now hu))

/-- The same of callers who come at one time. -/
theorem Sound.shared_at (h : d.Sound) (callers : Nat) (hnow : now.InCalendar)
    (hpast : ¬ Lasting d.log now) (hdue : ¬ Undue d.log) (hresult : results d.log = .token t)
    (hcalendar : t.expiresAt.InCalendar) (hlasts : t.Lasts now) :
    (d.cache.getEach now (noted results) (callers + 1)).run d.log =
      ((List.replicate (callers + 1) (some (.ok t.token)), ⟨some t⟩),
        .exchanged (.token t) :: d.log) := by
  have horder : ∀ u ∈ now :: List.replicate callers now, now.before u = false := by
    intro u hu
    rw [List.eq_of_mem_replicate (n := callers + 1) hu]
    exact Bool.eq_false_iff.mpr fun hbefore => by
      rw [Instant.before_iff] at hbefore
      omega
  rw [run_getEach, List.replicate_succ,
    h.shared horder hnow hpast hdue hresult hcalendar hlasts, List.length_replicate]
  rfl

/-- Whatever a cache has been asked before, and whatever has come of the exchanges: a caller is
served from the token that stands or by an exchange, and all callers who come together while there
is none that lasts, the last of them no later than the new one lasts, are served by a single
exchange; so are all who come at one time. -/
theorem tokens_stand (results : List Deed → Exchanged) (requests : List Request) :
    (after results requests).cache.cached = standing (after results requests).log ∧
    (∀ now, Serves results (after results requests) now
      ((after results requests).get results now).1 ((after results requests).get results now).2) ∧
    (∀ t now later last, (∀ u ∈ now :: later, last.before u = false) → last.InCalendar →
      ¬ Lasting (after results requests).log now → ¬ Undue (after results requests).log →
      results (after results requests).log = .token t → t.expiresAt.InCalendar → t.Lasts last →
      (after results requests).getAll results (now :: later) =
        (List.replicate (later.length + 1) (some (.ok t.token)),
          ⟨⟨some t⟩, .exchanged (.token t) :: (after results requests).log⟩)) ∧
    ∀ t now callers, now.InCalendar →
      ¬ Lasting (after results requests).log now → ¬ Undue (after results requests).log →
      results (after results requests).log = .token t → t.expiresAt.InCalendar → t.Lasts now →
      ((after results requests).cache.getEach now (noted results) (callers + 1)).run
          (after results requests).log =
        ((List.replicate (callers + 1) (some (.ok t.token)), ⟨some t⟩),
          .exchanged (.token t) :: (after results requests).log) := by
  have hsound := sound_after results requests
  refine ⟨hsound, hsound.serves results, ?_, ?_⟩
  · intro t now later last horder hlast hpast hdue hresult hcalendar hlasts
    exact hsound.shared horder hlast hpast hdue hresult hcalendar hlasts
  · intro t now callers hnow hpast hdue hresult hcalendar hlasts
    exact hsound.shared_at callers hnow hpast hdue hresult hcalendar hlasts

/-- The first token expires at 1000 seconds and every other one at 2000. -/
def twoTokens : List Deed → Exchanged
  | [] => .token ⟨"first", ⟨1000, 0⟩⟩
  | _ => .token ⟨"second", ⟨2000, 0⟩⟩

/-- With the margin left and no more, the first token does not last. -/
theorem tokens_stand_together :
    (after twoTokens [.get ⟨0, 0⟩]).getAll twoTokens [⟨700, 0⟩, ⟨700, 5⟩, ⟨1600, 0⟩] =
        (List.replicate 3 (some (.ok "second")), ⟨⟨some ⟨"second", ⟨2000, 0⟩⟩⟩,
          [.exchanged (.token ⟨"second", ⟨2000, 0⟩⟩),
            .exchanged (.token ⟨"first", ⟨1000, 0⟩⟩)]⟩) ∧
      ((after twoTokens [.get ⟨0, 0⟩]).cache.getEach ⟨700, 0⟩ (noted twoTokens) 2).run
          (after twoTokens [.get ⟨0, 0⟩]).log =
        ((List.replicate 2 (some (.ok "second")), ⟨some ⟨"second", ⟨2000, 0⟩⟩⟩),
          [.exchanged (.token ⟨"second", ⟨2000, 0⟩⟩),
            .exchanged (.token ⟨"first", ⟨1000, 0⟩⟩)]) := by
  have hstands : standing (after twoTokens [.get ⟨0, 0⟩]).log = some ⟨"first", ⟨1000, 0⟩⟩ := rfl
  have hpast : ¬ Lasting (after twoTokens [.get ⟨0, 0⟩]).log ⟨700, 0⟩ := by
    rintro ⟨t, ht, hlasts⟩
    obtain rfl := Option.some.inj (hstands.symm.trans ht)
    exact absurd hlasts (by decide)
  have hdue : ¬ Undue (after twoTokens [.get ⟨0, 0⟩]).log := by
    rintro ⟨t, ht, hundue⟩
    obtain rfl := Option.some.inj (hstands.symm.trans ht)
    exact absurd (by decide) hundue
  obtain ⟨-, -, htogether, hat⟩ := tokens_stand twoTokens [.get ⟨0, 0⟩]
  exact ⟨htogether ⟨"second", ⟨2000, 0⟩⟩ ⟨700, 0⟩ [⟨700, 5⟩, ⟨1600, 0⟩] ⟨1600, 0⟩ (by decide)
      (by decide) hpast hdue rfl (by decide) (by decide),
    hat ⟨"second", ⟨2000, 0⟩⟩ ⟨700, 0⟩ 1 (by decide) hpast hdue rfl (by decide) (by decide)⟩

/-- Every token expires as soon as the calendar begins. -/
def outworn : List Deed → Exchanged := fun _ => .token ⟨"outworn", ⟨-8334601228800, 0⟩⟩

/-- The token that stands is long past and not exchanged: no instant lies the margin before its
end, and the run is broken off where the two times are compared. -/
theorem outworn_token_breaks :
    standing (after outworn [.get ⟨0, 0⟩]).log = some ⟨"outworn", ⟨-8334601228800, 0⟩⟩ ∧
      (⟨-8334601228800, 0⟩ : Instant).InCalendar ∧
      ¬ Lasting (after outworn [.get ⟨0, 0⟩]).log ⟨1, 0⟩ ∧
      (after outworn [.get ⟨0, 0⟩]).get outworn ⟨1, 0⟩ =
        (none, after outworn [.get ⟨0, 0⟩]) := by
  have hstands : standing (after outworn [.get ⟨0, 0⟩]).log =
      some ⟨"outworn", ⟨-8334601228800, 0⟩⟩ := rfl
  refine ⟨hstands, by decide, ?_, get_brokenOff hstands (by decide)⟩
  rintro ⟨t, ht, hlasts⟩
  obtain rfl := Option.some.inj (hstands.symm.trans ht)
  exact absurd hlasts (by decide)

end Desk
end Quire.Credential
