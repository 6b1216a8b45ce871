import Mathlib.Data.List.Range
import Quire.Chat.Client
import Quire.Ocr.Client

/-! What trying again comes to.

Attempts are given by the outcome that each of them would have. The first outcome that is not
throttling ends the matter, and so does the last attempt that is allowed; there is a pause before
every attempt but the first, one base longer each time. Whatever an attempt is, throttling is
never the outcome of all of them, and so a client never tells of it. -/
namespace Quire

/-! ### Throttling -/

/-- Throttling and the ordinary failure that it becomes both tell a status and a body. -/
class Throttling (ε : Type) [Throttled ε] where
  throttled : Nat → String → ε
  refused : Nat → String → ε
  isTransient_iff (e : ε) :
    Throttled.isTransient e = true ↔ ∃ status body, e = throttled status body
  settled_throttled (status : Nat) (body : String) :
    Throttled.settled (throttled status body) = refused status body
  isTransient_refused (status : Nat) (body : String) :
    Throttled.isTransient (refused status body) = false

instance : Throttling LlmError where
  throttled := .transient
  refused := .api
  isTransient_iff e := by cases e <;> simp [Throttled.isTransient]
  settled_throttled _ _ := rfl
  isTransient_refused _ _ := rfl

instance : Throttling OcrError where
  throttled := .transient
  refused := .api
  isTransient_iff e := by cases e <;> simp [Throttled.isTransient]
  settled_throttled _ _ := rfl
  isTransient_refused _ _ := rfl

/-! ### Outcomes of any computation -/

section
variable {m : Type → Type} [Monad m] {β γ : Type}

/-- All outcomes of a computation have a property. -/
def Ensures (P : β → Prop) (x : m β) : Prop := ∃ y : m { b // P b }, Subtype.val <$> y = x

variable [LawfulMonad m] {P : β → Prop} {Q : γ → Prop}

theorem Ensures.pure {b : β} (h : P b) : Ensures P (Pure.pure b : m β) :=
  ⟨Pure.pure ⟨b, h⟩, map_pure _ _⟩

theorem Ensures.trivial (x : m β) : Ensures (fun _ => True) x :=
  ⟨(⟨·, True.intro⟩) <$> x, by rw [← comp_map]; exact id_map x⟩

theorem Ensures.bind {x : m β} {k : β → m γ} (hx : Ensures P x) (hk : ∀ b, P b → Ensures Q (k b)) :
    Ensures Q (x >>= k) := by
  obtain ⟨y, rfl⟩ := hx
  choose z hz using hk
  refine ⟨y >>= fun b => z b.1 b.2, ?_⟩
  rw [map_bind, bind_map_left]
  exact bind_congr fun b => hz b.1 b.2

theorem Ensures.map {x : m β} {f : β → γ} (hx : Ensures P x) (hf : ∀ b, P b → Q (f b)) :
    Ensures Q (f <$> x) := by
  rw [map_eq_pure_bind]
  exact hx.bind fun b hb => .pure (hf b hb)

/-- A computation with a state ensures what holds from every state. -/
theorem ensures_state {σ : Type} {x : StateM σ β} : Ensures P x ↔ ∀ s, P (x.run s).1 := by
  constructor
  · rintro ⟨y, rfl⟩ s
    exact (y.run s).1.2
  · exact fun h => ⟨fun s => (⟨(x.run s).1, h s⟩, (x.run s).2), rfl⟩

end

namespace RetryPolicy

section
variable {ε α : Type} [Throttled ε]

/-- Whether an outcome is throttling. -/
def isThrottled : Except ε α → Bool
  | .ok _ => false
  | .error e => Throttled.isTransient e

/-- What the last outcome counts as. -/
def settle : Except ε α → Except ε α
  | .ok a => .ok a
  | .error e => .error (if Throttled.isTransient e then Throttled.settled e else e)

theorem settle_of_not {o : Except ε α} (h : isThrottled o = false) : settle o = o := by
  cases o with
  | ok a => rfl
  | error e =>
    have he : Throttled.isTransient e = false := h
    simp [settle, he]

theorem isThrottled_map {β : Type} (f : α → β) (o : Except ε α) :
    isThrottled (o.map f) = isThrottled o := by
  cases o <;> rfl

variable [Throttling ε]

theorem isThrottled_iff {o : Except ε α} :
    isThrottled o = true ↔ ∃ status body, o = .error (Throttling.throttled status body) := by
  cases o with
  | ok a => simp [isThrottled]
  | error e => simp [isThrottled, Throttling.isTransient_iff]

theorem settle_throttled (status : Nat) (body : String) :
    settle (.error (Throttling.throttled status body) : Except ε α) =
      .error (Throttling.refused status body) := by
  have htransient := (Throttling.isTransient_iff (Throttling.throttled (ε := ε) status body)).mpr
    ⟨status, body, rfl⟩
  simp [settle, htransient, Throttling.settled_throttled]

/-- Throttling is not the last word. -/
theorem isThrottled_settle (o : Except ε α) : isThrottled (settle o) = false := by
  by_cases h : isThrottled o = true
  · obtain ⟨status, body, rfl⟩ := isThrottled_iff.mp h
    rw [settle_throttled]
    exact Throttling.isTransient_refused status body
  · rw [Bool.not_eq_true] at h
    rwa [settle_of_not h]

end

/-! ### One attempt after another -/

section
variable {ε α : Type} [Throttled ε] {m : Type → Type} [Monad m] [LawfulMonad m] (base : Nat)
  (pause : Nat → m Unit) (attempt : m (Except ε α)) (made : Nat)

theorem attempts_zero : attempts base pause attempt made 0 = settle <$> attempt := by
  rw [attempts, map_eq_pure_bind]
  refine bind_congr fun o => ?_
  cases o <;> rfl

omit [LawfulMonad m] in
theorem attempts_succ (left : Nat) :
    attempts base pause attempt made (left + 1) = attempt >>= fun o =>
      if isThrottled o then
        pause (base * (made + 1)) >>= fun _ => attempts base pause attempt (made + 1) left
      else pure o := by
  rw [attempts]
  refine bind_congr fun o => ?_
  cases o <;> rfl

end

/-! ### Attempts with given outcomes -/

inductive Mark
  | attempted
  | paused (time : Nat)
  deriving DecidableEq

/-- A computation that tells what it does. -/
abbrev Telling : Type → Type := StateM (List Mark)

/-- The attempts have these outcomes one after the other. -/
def Telling.attempt {β : Type} (outcomes : Nat → β) : Telling β := fun told =>
  (outcomes (told.count .attempted), told ++ [.attempted])

def Telling.pause (time : Nat) : Telling Unit := fun told => ((), told ++ [.paused time])

/-- So many further attempts, each after its pause. -/
def again (base made n : Nat) : List Mark :=
  (List.range n).flatMap fun i => [.paused (base * (made + i + 1)), .attempted]

theorem again_succ (base made n : Nat) :
    again base made (n + 1) =
      .paused (base * (made + 1)) :: .attempted :: again base (made + 1) n := by
  unfold again
  rw [List.range_succ_eq_map, List.flatMap_cons, List.flatMap_map]
  simp only [Nat.add_zero, List.cons_append, List.nil_append]
  refine congrArg _ (congrArg _ (List.flatMap_congr fun i _ => ?_))
  rw [show made + (i + 1) + 1 = made + 1 + i + 1 by omega]

section
variable {ε α : Type} [Throttled ε]

/-- The attempt with this number, counted from none, is the first that is not throttled or the last
that is allowed. -/
structure Stops (allowed : Nat) (outcomes : Nat → Except ε α) (n : Nat) : Prop where
  le : n + 1 ≤ allowed
  before : ∀ i < n, isThrottled (outcomes i) = true
  last : n + 1 = allowed ∨ isThrottled (outcomes n) = false

theorem Stops.unique {allowed : Nat} {outcomes : Nat → Except ε α} {n k : Nat}
    (hn : Stops allowed outcomes n) (hk : Stops allowed outcomes k) : n = k := by
  have hle : ∀ {n k}, Stops allowed outcomes n → Stops allowed outcomes k → n ≤ k := by
    intro n k hn hk
    by_contra hlt
    rcases hk.last with hlast | hlast
    · have := hn.le
      omega
    · rw [hn.before k (by omega)] at hlast
      cases hlast
  exact Nat.le_antisymm (hle hn hk) (hle hk hn)

/-- Of the attempts that are left, the first that is not throttled or the last is made with all
before it. -/
theorem attempts_told (base : Nat) (outcomes : Nat → Except ε α) (left made : Nat)
    (told : List Mark) (hmade : told.count .attempted = made) :
    ∃ n, Stops (left + 1) (fun i => outcomes (made + i)) n ∧
      attempts base Telling.pause (Telling.attempt outcomes) made left told =
        (settle (outcomes (made + n)), told ++ .attempted :: again base made n) := by
  induction left generalizing made told with
  | zero =>
    refine ⟨0, ⟨Nat.le_refl _, nofun, .inl rfl⟩, ?_⟩
    rw [attempts_zero, ← hmade]
    rfl
  | succ left ih =>
    rw [attempts_succ]
    have hattempt : ∀ k : Except ε α → Telling (Except ε α),
        (Telling.attempt outcomes >>= k) told = k (outcomes made) (told ++ [.attempted]) :=
      fun k => by rw [← hmade]; rfl
    rw [hattempt]
    cases hthrottled : isThrottled (outcomes made) with
    | false =>
      refine ⟨0, ⟨Nat.succ_pos _, nofun, .inr hthrottled⟩, ?_⟩
      rw [if_neg Bool.false_ne_true, Nat.add_zero, settle_of_not hthrottled]
      rfl
    | true =>
      obtain ⟨n, hstops, hrun⟩ := ih (made + 1)
        (told ++ [.attempted] ++ [.paused (base * (made + 1))]) (by simp [hmade])
      have hnext : ∀ i, made + (i + 1) = made + 1 + i := by omega
      refine ⟨n + 1, ⟨Nat.succ_le_succ hstops.le, fun i hi => ?_, ?_⟩, ?_⟩
      · cases i with
        | zero => exact hthrottled
        | succ i => exact hnext i ▸ hstops.before i (Nat.lt_of_succ_lt_succ hi)
      · exact hstops.last.imp (congrArg (· + 1)) (hnext n ▸ ·)
      · rw [if_pos rfl, again_succ, hnext n]
        refine Eq.trans hrun ?_
        simp

end

/-! ### Whatever an attempt is -/

/-- However attempts and pauses go, throttling is not the outcome. -/
theorem run_settles {ε α : Type} [Throttled ε] [Throttling ε] {m : Type → Type} [Monad m]
    [LawfulMonad m] (p : RetryPolicy) (pause : Nat → m Unit) (attempt : m (Except ε α)) :
    Ensures (fun o => isThrottled o = false) (p.run pause attempt) := by
  unfold run
  generalize 0 = made
  generalize p.maxAttempts.toNat - 1 = left
  induction left generalizing made with
  | zero =>
    rw [attempts_zero]
    exact (Ensures.trivial attempt).map fun o _ => isThrottled_settle o
  | succ left ih =>
    rw [attempts_succ]
    refine (Ensures.trivial attempt).bind fun o _ => ?_
    split
    · exact (Ensures.trivial _).bind fun _ _ => ih (made + 1)
    · next h => exact .pure (Bool.eq_false_iff.mpr h)

end RetryPolicy

open RetryPolicy

/-- The first attempt that is not throttled, or the last that is allowed, is made and all before it.
The pauses lie between them, one base longer each time, and none is longer than the last could
be. The outcome is that of this attempt, throttling being told as an ordinary failure of the same
status and body. So throttling is what neither trying again nor a client that does so ever tells,
whatever an attempt is and does. -/
theorem retry_is_exact :
    (∀ {ε α : Type} [Throttled ε] [Throttling ε] (p : RetryPolicy) (outcomes : Nat → Except ε α)
      (longest : Nat), p.backoff * (p.maxAttempts.toNat - 1) ≤ longest →
      ∃ n, Stops (max 1 p.maxAttempts.toNat) outcomes n ∧
        (∀ k, Stops (max 1 p.maxAttempts.toNat) outcomes k → k = n) ∧
        ∃ o told, (p.run Telling.pause (Telling.attempt outcomes)).run [] = (o, told) ∧
          (told = .attempted :: (List.range n).flatMap fun i =>
            [.paused (p.backoff * (i + 1)), .attempted]) ∧
          (∀ time, .paused time ∈ told → time ≤ longest) ∧
          (∀ status body, outcomes n = .error (Throttling.throttled status body) →
            o = .error (Throttling.refused status body)) ∧
          (isThrottled (outcomes n) = false → o = outcomes n)) ∧
    ∀ {m : Type → Type} [Monad m] [LawfulMonad m],
      (∀ {ε α : Type} [Throttled ε] [Throttling ε] (p : RetryPolicy) (pause : Nat → m Unit)
        (attempt : m (Except ε α)), Ensures (isThrottled · = false) (p.run pause attempt)) ∧
      ∀ wire : Http.Wire m,
        (∀ (c : Chat.Client) (r : Chat.Request),
          Ensures (isThrottled · = false) (c.complete wire r)) ∧
        ∀ (c : Ocr.Client) (token : m (Except AuthError String)),
          (∀ content mime, Ensures (isThrottled · = false) (c.process wire token content mime)) ∧
          (∀ inputUri mime outputUri,
            Ensures (isThrottled · = false) (c.submit wire token inputUri mime outputUri)) ∧
          ∀ handle, Ensures (isThrottled · = false) (c.status wire token handle) := by
  refine ⟨fun p outcomes longest hlongest => ?_, fun {m} _ _ => ⟨run_settles, fun wire =>
    ⟨fun c r => run_settles _ _ _, fun c token => ⟨fun content mime => ?_,
      fun inputUri mime outputUri => ?_, fun handle => ?_⟩⟩⟩⟩
  · obtain ⟨n, hstops, hrun⟩ := attempts_told p.backoff outcomes
      (p.maxAttempts.toNat - 1) 0 [] rfl
    have hallowed : p.maxAttempts.toNat - 1 + 1 = max 1 p.maxAttempts.toNat := by omega
    simp only [Nat.zero_add, hallowed] at hstops hrun
    refine ⟨n, hstops, fun k hk => hk.unique hstops, _, _, hrun, ?_, fun time htime => ?_, ?_,
      settle_of_not⟩
    · simp only [again, Nat.zero_add, List.nil_append]
    · obtain ⟨i, hi, rfl⟩ : ∃ i < n, p.backoff * (i + 1) = time := by
        simpa [again, eq_comm] using htime
      exact (Nat.mul_le_mul_left _ (by have := hstops.le; omega)).trans hlongest
    · rintro status body h
      rw [h, settle_throttled]
  · exact (run_settles _ _ _).bind fun o ho => .pure ((isThrottled_map _ o).trans ho)
  · refine (run_settles _ _ _).bind fun o ho => ?_
    cases o with
    | error e => exact .pure ho
    | ok operation =>
      dsimp only
      split
      · exact .pure rfl
      · exact .pure rfl
  · exact (run_settles _ _ _).bind fun o ho => .pure ((isThrottled_map _ o).trans ho)

/-- A service that is throttling for two attempts. -/
def RetryPolicy.busy (i : Nat) : Except LlmError String :=
  if i < 2 then .error (.transient 429 "later") else .ok "done"

/-- A wire on which every reply is that the service is throttling. -/
def RetryPolicy.busyWire : Http.Wire (StateM (List Nat)) where
  send _ := pure (some ⟨503, "later".toUTF8⟩)
  pause time := modify (· ++ [time])

/-- With three attempts the third one counts, after two pauses; with two attempts the refusal does.
A client that meets nothing but throttling does not tell of it. -/
theorem retry_is_exact_busy :
    ((RetryPolicy.mk 3 500).run Telling.pause (Telling.attempt busy)).run [] =
        (.ok "done", [.attempted, .paused 500, .attempted, .paused 1000, .attempted]) ∧
      ((RetryPolicy.mk 2 500).run Telling.pause (Telling.attempt busy)).run [] =
        (.error (.api 429 "later"), [.attempted, .paused 500, .attempted]) ∧
      ∀ (c : Chat.Client) (r : Chat.Request) told,
        isThrottled ((c.complete busyWire r).run told).1 = false := by
  refine ⟨?_, ?_, fun c r told => ensures_state.mp ((retry_is_exact.2.2 busyWire).1 c r) told⟩
  · obtain ⟨n, hstops, hunique, o, told, hrun, htold, -, -, hothers⟩ :=
      retry_is_exact.1 (.mk 3 500) busy 1000 (by decide)
    obtain rfl : 2 = n := hunique 2 ⟨by decide, by decide, .inl (by decide)⟩
    rw [hrun, htold, hothers rfl]
    rfl
  · obtain ⟨n, hstops, hunique, o, told, hrun, htold, -, hthrottled, -⟩ :=
      retry_is_exact.1 (.mk 2 500) busy 500 (by decide)
    obtain rfl : 1 = n := hunique 1 ⟨by decide, by decide, .inl (by decide)⟩
    rw [hrun, htold, hthrottled 429 "later" rfl]
    rfl

end Quire
