import Quire.Credential.Token
import Quire.Proofs.Json.Objects
import Quire.Proofs.Time.Order

/-! What a token endpoint's reply comes to.

An exchange that has got a reply ends with a failure, or with a token that expires its lifetime after
the reply; only if that is beyond the calendar the run is broken off. The lifetime is what the body
says, whatever else stands in it, or an hour. -/
namespace Quire.Credential
open Json (Record)

/-! ### Expiry -/

theorem expiry?_of_le {seconds : Int} (hspan : seconds.natAbs ≤ Span.limit) (now : Instant) :
    expiry? now seconds =
      if (now.after ⟨seconds⟩).InCalendar then some (now.after ⟨seconds⟩) else none := by
  rw [expiry?, if_pos hspan]
  exact if_congr Instant.inRange_year_iff rfl rfl

theorem expiry?_eq {now : Instant} (hnow : now.InCalendar) (seconds : Int) :
    expiry? now seconds =
      if (now.after ⟨seconds⟩).InCalendar then some (now.after ⟨seconds⟩) else none := by
  by_cases hspan : seconds.natAbs ≤ Span.limit
  · exact expiry?_of_le hspan now
  · -- No two instants of the calendar are as far apart as that.
    have hbeyond : ¬ (now.after ⟨seconds⟩).InCalendar := by
      unfold Span.limit at hspan
      unfold Instant.InCalendar Instant.after at *
      dsimp only
      omega
    rw [expiry?, if_neg hspan, if_neg hbeyond]

/-! ### Bodies -/

/-- How a lifetime stands in a body; an hour need not. -/
inductive Lifetime : Int → Option Json → Prop
  | seconds {n : Int} : -0x8000000000000000 ≤ n → n ≤ 0x7FFFFFFFFFFFFFFF →
      Lifetime n (some (.ofInt n))
  | hour : Lifetime 3600 none

/-- What stands in the body of a grant. -/
def GrantParts (token : String) (lifetime : Int) (members : String → Option Json) : Prop :=
  members "access_token" = some (.text token) ∧ Lifetime lifetime (members "expires_in")

section
variable {members : String → Option Json} {origin : Json.Origin} {token : String} {lifetime : Int}

theorem GrantParts.gives (h : GrantParts token lifetime members) :
    (Prod.mk <$> Record.required "access_token" Json.Shape.string <*>
      Record.optional "expires_in" Json.Shape.signed64 assertionLifetime).Gives origin members
        (token, lifetime) := by
  obtain ⟨htoken, hlifetime⟩ := h
  refine ((Record.Gives.given htoken rfl).map Prod.mk).seq ?_
  generalize hstands : members "expires_in" = stands at hlifetime
  cases hlifetime with
  | hour => exact Record.Gives.missing hstands
  | seconds hlow hhigh => exact Record.Gives.given hstands (Json.integer_ofInt hlow hhigh)

theorem GrantParts.of_gives
    (h : (Prod.mk <$> Record.required "access_token" Json.Shape.string <*>
      Record.optional "expires_in" Json.Shape.signed64 assertionLifetime).Gives origin members
        (token, lifetime)) : GrantParts token lifetime members := by
  obtain ⟨_, _, hfirst, hlifetime, hpair⟩ := h.of_seq
  obtain ⟨_, htoken, rfl⟩ := hfirst.of_map
  cases hpair
  constructor
  · rcases htoken.of_field with ⟨j, hstands, hread⟩ | ⟨-, habsent⟩
    · rw [hstands, Json.eq_text_of_string hread]
    · cases habsent
  · rcases hlifetime.of_field with ⟨j, hstands, hread⟩ | ⟨hnone, hhour⟩
    · obtain ⟨rfl, hlow, hhigh⟩ := Json.eq_ofInt_of_integer hread
      rw [hstands]
      exact .seconds hlow hhigh
    · rw [hnone, ← Except.ok.inj hhour]
      exact .hour

end

/-- Of an object exactly its parts are read. -/
theorem read_grant_iff {reply : Http.Reply} {members : List (String × Json)}
    (hbody : (Json.object members).Written reply.body) (hnodup : (members.map Prod.fst).Nodup)
    {token : String} {lifetime : Int} :
    reply.read grantShape = .ok (token, lifetime) ↔
      GrantParts token lifetime (members.lookup ·) := by
  rw [Http.Reply.read, Json.readBytes_written _ hbody]
  exact ⟨fun hread => .of_gives (Record.gives_of_shape "TokenResponse" ⟨rfl, by decide⟩ hnodup hread),
    fun hparts => Record.shape_object "TokenResponse" ⟨rfl, by decide⟩ hnodup hparts.gives⟩

/-! ### Replies -/

/-- What the endpoint is asked. -/
def grantRequest (key : ServiceAccountKey) (assertion : String) : Http.Request :=
  ⟨.post, key.tokenUri, [], none,
    .form [("grant_type", grantType), ("assertion", assertion)]⟩

theorem granted_rejected {reply : Http.Reply} (h : reply.isSuccess = false) (now : Instant) :
    granted now reply = .refused (.tokenEndpoint reply.status (Http.truncated reply.text)) := by
  rw [granted, h]
  rfl

theorem granted_unreadable {reply : Http.Reply} (h : reply.isSuccess = true) {fault : Json.Fault}
    (hread : reply.read grantShape = .error fault) (now : Instant) :
    granted now reply = .refused .request := by
  rw [granted, h, hread]
  rfl

theorem granted_read {reply : Http.Reply} (h : reply.isSuccess = true) {token : String}
    {lifetime : Int} (hread : reply.read grantShape = .ok (token, lifetime)) {now : Instant}
    (hnow : now.InCalendar) :
    granted now reply =
      if (now.after ⟨lifetime⟩).InCalendar then .token ⟨token, now.after ⟨lifetime⟩⟩
      else .brokenOff := by
  rw [granted, h, hread, if_neg (show ¬ (!true) = true by decide)]
  dsimp only
  rw [expiry?_eq hnow]
  by_cases hlasts : (now.after ⟨lifetime⟩).InCalendar
  · rw [if_pos hlasts, if_pos hlasts]
  · rw [if_neg hlasts, if_neg hlasts]

/-- What follows is run from where the first part has ended. -/
theorem run_bind_of_run {σ α β : Type} {first : StateM σ α} {next : α → StateM σ β} {s s' : σ}
    {a : α} (h : first.run s = (a, s')) : (first >>= next).run s = (next a).run s' := by
  rw [StateT.run_bind, h]
  rfl

section
variable {σ : Type} {key : ServiceAccountKey} {signer : Signer (StateM σ)}
  {wire : Http.Wire (StateM σ)} {s s₁ s₂ s₃ s₄ : σ} {asked now : Instant} {assertion : String}
  {reply : Http.Reply}

/-- An exchange comes to what the reply gives at the time when it is there. -/
theorem exchange_replied (hasked : signer.now.run s = (asked, s₁))
    (hsigned : (signer.sign key.privateKey (key.claims asked)).run s₁ = (some assertion, s₂))
    (hreplied : (wire.send (grantRequest key assertion)).run s₂ = (some reply, s₃))
    (hnow : signer.now.run s₃ = (now, s₄)) :
    (exchange key signer wire).run s = (granted now reply, s₄) := by
  rw [exchange, run_bind_of_run hasked, run_bind_of_run hsigned]
  exact (run_bind_of_run hreplied).trans (run_bind_of_run hnow)

/-- Whatever the endpoint replies, the exchange fails or gives the token of the body, which expires
the lifetime in the body, or else an hour, after the reply. It is broken off just if the token would
expire beyond the calendar. -/
theorem exchange_answers (hasked : signer.now.run s = (asked, s₁))
    (hsigned : (signer.sign key.privateKey (key.claims asked)).run s₁ = (some assertion, s₂))
    (hreplied : (wire.send (grantRequest key assertion)).run s₂ = (some reply, s₃))
    (hnow : signer.now.run s₃ = (now, s₄)) (hcalendar : now.InCalendar) :
    ∃ ended, (exchange key signer wire).run s = (ended, s₄) ∧
      (reply.isSuccess = false →
        ended = .refused (.tokenEndpoint reply.status (Http.truncated reply.text))) ∧
      (reply.isSuccess = true →
        (∀ fault, reply.read grantShape = .error fault → ended = .refused .request) ∧
        ∀ token lifetime, reply.read grantShape = .ok (token, lifetime) →
          ended = if (now.after ⟨lifetime⟩).InCalendar then .token ⟨token, now.after ⟨lifetime⟩⟩
            else .brokenOff) ∧
      ∀ members, (Json.object members).Written reply.body → (members.map Prod.fst).Nodup →
        ∀ token lifetime, reply.read grantShape = .ok (token, lifetime) ↔
          GrantParts token lifetime (members.lookup ·) :=
  ⟨_, exchange_replied hasked hsigned hreplied hnow, fun hrejected => granted_rejected hrejected now,
    fun hsuccess => ⟨fun _ hread => granted_unreadable hsuccess hread now,
      fun _ _ hread => granted_read hsuccess hread hcalendar⟩,
    fun _ hbody hnodup _ _ => read_grant_iff hbody hnodup⟩

end

/-- A key, a clock that stands still, and an endpoint that counts how often it is asked. -/
def anyKey : ServiceAccountKey := ⟨"svc@a.test", "key", "https://a.test/token"⟩

def steady (now : Instant) : Signer (StateM Nat) where
  now := pure now
  sign _ _ := pure (some "assertion")

def replying (reply : Http.Reply) : Http.Wire (StateM Nat) where
  send _ := modifyGet fun asked => (some reply, asked + 1)
  pause _ := pure ()

/-- A grant for a number of seconds. -/
def grantFor (seconds : Int) : List (String × Json) :=
  [("access_token", .text "T"), ("expires_in", .ofInt seconds)]

def grant (seconds : Int) : Http.Reply := ⟨200, (Json.object (grantFor seconds)).compact.toUTF8⟩

theorem grant_written {seconds : Int} (hlow : -0x8000000000000000 ≤ seconds)
    (hhigh : seconds ≤ 0x7FFFFFFFFFFFFFFF) :
    (Json.object (grantFor seconds)).Written (grant seconds).body := by
  refine Json.written_compact ?_ (Nat.le_of_ble_eq_true rfl)
  have hword : seconds ≤ Json.maxWord := by
    unfold Json.maxWord
    omega
  simp [grantFor, Json.Fits, Json.MembersFit, Json.ofInt, Json.Number.Fits, hlow, hword]

theorem exchange_answers_minute :
    (exchange anyKey (steady ⟨0, 0⟩) (replying (grant 60))).run 0 =
      (.token ⟨"T", ⟨60, 0⟩⟩, 1) := by
  obtain ⟨ended, hrun, -, hsuccess, hbody⟩ :=
    @exchange_answers Nat anyKey (steady ⟨0, 0⟩) (replying (grant 60)) 0 0 0 1 1 ⟨0, 0⟩ ⟨0, 0⟩
      "assertion" (grant 60) rfl rfl rfl rfl (by decide)
  have hread := (hbody (grantFor 60) (grant_written (by decide) (by decide)) (by decide) "T" 60).mpr
    ⟨rfl, .seconds (by decide) (by decide)⟩
  rw [hrun, (hsuccess rfl).2 _ _ hread, if_pos (by decide)]
  rfl

/-- A lifetime of 64 bits, beyond the calendar. -/
theorem endless_grant_breaks :
    (grant 0x7FFFFFFFFFFFFFFF).read grantShape = .ok ("T", 0x7FFFFFFFFFFFFFFF) ∧
    (exchange anyKey (steady ⟨0, 0⟩) (replying (grant 0x7FFFFFFFFFFFFFFF))).run 0 =
      (.brokenOff, 1) := by
  have hread : (grant 0x7FFFFFFFFFFFFFFF).read grantShape = .ok ("T", 0x7FFFFFFFFFFFFFFF) :=
    (read_grant_iff (grant_written (by decide) (by decide)) (by decide)).mpr
      ⟨rfl, .seconds (by decide) (by decide)⟩
  have hrun : (exchange anyKey (steady ⟨0, 0⟩) (replying (grant 0x7FFFFFFFFFFFFFFF))).run 0 =
      (granted ⟨0, 0⟩ (grant 0x7FFFFFFFFFFFFFFF), 1) := exchange_replied rfl rfl rfl rfl
  refine ⟨hread, ?_⟩
  rw [hrun, granted_read rfl hread (by decide), if_neg (by decide)]

end Quire.Credential
