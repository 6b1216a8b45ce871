import Quire.Object.Client
import Quire.Proofs.Json.Objects

/-! A listing, page after page.

A bucket lists its objects in pages, and each page but the last names the next one by a token. What
a round of the listing asks and makes of the reply depends on the reply alone (`listRound_run`), so
the rounds go along the pages (`run_listRounds`): every page is asked for once, by the token of
the page before, and the names of all pages stand one behind the other. The first reply that is no
page ends the listing with its failure. -/
namespace Quire.Object
open Json (HasItems HasMembers Maybe Record)

/-! ### The other end of the wire -/

/-- Replies that are still to come, one for each request, and the requests so far. -/
structure Line where
  replies : List Http.Reply
  requests : List Http.Request

namespace Line

instance : Inhabited Line := ⟨⟨[], []⟩⟩

/-- Every request is noted. After the last reply there is none. -/
def wire : Http.Wire (StateM Line) where
  send request := fun line =>
    (line.replies.head?, ⟨line.replies.tail, line.requests ++ [request]⟩)
  pause _ := pure ()

/-- There is a token for every request, perhaps another one each time. -/
def token (bearers : Nat → String) : StateM Line (Except AuthError String) := fun line =>
  (.ok (bearers line.requests.length), line)

end Line

/-- The request for a page of the objects that begin alike: the first page, or the one that a token
stands for. -/
def pageRequest (url start bearer : String) : Option String → Http.Request
  | none => ⟨.get, url, [("prefix", start)], some bearer, .empty⟩
  | some token => ⟨.get, url, [("prefix", start), ("pageToken", token)], some bearer, .empty⟩

/-! ### Pages -/

/-- A reply that is a page of a listing. -/
structure Shows (r : Http.Reply) (l : Listing) : Prop where
  success : r.isSuccess = true
  read : r.read Listing.shape = .ok l

theorem Shows.listing {r : Http.Reply} {l : Listing} (h : Shows r l) :
    Client.listing r = .ok l := by
  simp [Client.listing, h.success, h.read]

/-- Why a reply is no page of a listing. -/
inductive Spoiled (r : Http.Reply) : StorageError → Prop
  | refused : r.isSuccess = false → Spoiled r (.api r.status (Http.truncated r.text))
  | undecodable {fault : Json.Fault} : r.isSuccess = true → r.read Listing.shape = .error fault →
      Spoiled r .request

theorem Spoiled.listing {r : Http.Reply} {e : StorageError} (h : Spoiled r e) :
    Client.listing r = .error e := by
  cases h with
  | refused hstatus =>
    simp [Client.listing, hstatus]
    rfl
  | undecodable hsuccess hread => simp [Client.listing, hsuccess, hread]

/-- The token of a next page; an empty one is none. -/
def Listing.Continues (l : Listing) : Prop := ∃ token, l.nextPage = some token ∧ token ≠ ""

/-- There is no next page. -/
def Listing.Ends (l : Listing) : Prop := l.nextPage = none ∨ l.nextPage = some ""

/-- What stands in the object of a page: items with a name each, or none at all, and perhaps a
token. -/
structure Listing.Parts (l : Listing) (members : String → Option Json) : Prop where
  items : l.names = [] ∧ members "items" = none ∨ ∃ j, members "items" = some j ∧
    HasItems (fun name => HasMembers fun item => item "name" = some (.text name)) l.names j
  nextPage : Maybe (fun token j => j = .text token) l.nextPage (members "nextPageToken")

theorem reads_string : Json.Shape.string.Reads fun s j => j = .text s where
  read h origin := by
    subst h
    rfl
  something h := by
    subst h
    exact Json.noConfusion

theorem reads_listing : Listing.shape.Reads fun l => HasMembers l.Parts :=
  Record.reads_object _ ⟨rfl, by decide⟩ fun {l _} h origin => by
    obtain ⟨names, nextPage⟩ := l
    obtain ⟨hitems, hnext⟩ := h
    have hitem : (Record.shape "ObjectResource" (.required "name" .string)).Reads
        fun name => HasMembers fun item => item "name" = some (.text name) :=
      Record.reads_object _ ⟨rfl, by decide⟩ fun hname _ => Record.Gives.given hname rfl
    refine (Record.Gives.map ?_ Listing.mk).seq (Record.Gives.nullable reads_string hnext)
    rcases hitems with ⟨rfl, hnone⟩ | ⟨j, hj, hitems⟩
    · exact Record.Gives.missing hnone
    · exact Record.Gives.given hj (hitem.list.read hitems origin)

/-- A success whose body is written for a page is that page. -/
theorem Shows.of_written {r : Http.Reply} {l : Listing} (hsuccess : r.isSuccess = true) {j : Json}
    (hj : HasMembers l.Parts j) (hbody : j.Written r.body) : Shows r l where
  success := hsuccess
  read := (Json.readBytes_written _ hbody).trans (reads_listing.read hj _)

/-! ### Rounds -/

namespace Client
variable {c : Client} {start url : String} {bearers : Nat → String} {names : List String}
  {page : Option String} {r : Http.Reply} {rest : List Http.Reply} {asked : List Http.Request}

/-- A round asks for its page and takes the next reply for it. -/
theorem listRound_run (hurl : c.address ["storage", "v1", "b"] none = .ok url) :
    (c.listRound Line.wire (Line.token bearers) start (names, page)).run ⟨r :: rest, asked⟩ =
      (turn names (listing r),
        ⟨rest, asked ++ [pageRequest url start (bearers asked.length) page]⟩) := by
  have hrequest : (⟨.get, url, listQuery start page, some (bearers asked.length), .empty⟩ :
      Http.Request) = pageRequest url start (bearers asked.length) page := by cases page <;> rfl
  unfold listRound
  rw [hurl, ← hrequest]
  rfl

theorem turn_error {e : StorageError} : turn names (.error e) = .inr (.error e) := rfl

theorem turn_continues {l : Listing} {token : String} (hnext : l.nextPage = some token)
    (htoken : token ≠ "") : turn names (.ok l) = .inl (names ++ l.names, some token) := by
  have hfilter : l.nextPage.filter (· != "") = some token := by
    rw [hnext]
    exact Option.filter_some_pos (by simpa using htoken)
  rw [turn, hfilter]

theorem turn_ends {l : Listing} (h : l.Ends) : turn names (.ok l) = .inr (.ok (names ++ l.names)) := by
  have hfilter : l.nextPage.filter (· != "") = none := by
    rcases h with h | h <;> rw [h] <;> rfl
  rw [turn, hfilter]

/-- The listing goes on with the next page, or has come to its result. -/
theorem repeatM_turn (hurl : c.address ["storage", "v1", "b"] none = .ok url) :
    (repeatM (c.listRound Line.wire (Line.token bearers) start) (names, page)).run
        ⟨r :: rest, asked⟩ =
      let line : Line := ⟨rest, asked ++ [pageRequest url start (bearers asked.length) page]⟩
      match turn names (listing r) with
      | .inl next => (repeatM (c.listRound Line.wire (Line.token bearers) start) next).run line
      | .inr result => (result, line) := by
  rw [repeatM_eq_of_monadTail, StateT.run_bind, listRound_run hurl]
  cases turn names (listing r) <;> rfl

/-- The requests for some pages, after so many requests before. -/
def requestsFrom (url start : String) (bearers : Nat → String) (before : Nat)
    (pages : List (Option String)) : List Http.Request :=
  pages.mapIdx fun i page => pageRequest url start (bearers (before + i)) page

theorem requestsFrom_cons {before : Nat} {pages : List (Option String)} :
    requestsFrom url start bearers before (page :: pages) =
      pageRequest url start (bearers before) page ::
        requestsFrom url start bearers (before + 1) pages := by
  simp only [requestsFrom, List.mapIdx_cons, Nat.add_zero, Nat.add_assoc, Nat.add_comm 1]

/-- A listing goes along its pages, up to the first reply after which it does not go on. -/
theorem run_listRounds (hurl : c.address ["storage", "v1", "b"] none = .ok url)
    {replies : List Http.Reply} {found : List Listing}
    (hshows : List.Forall₂ Shows replies found) (hcontinue : ∀ l ∈ found, l.Continues)
    {last : Http.Reply} {result : Except StorageError (List String)}
    (hlast : turn (names ++ found.flatMap (·.names)) (listing last) = .inr result) :
    (repeatM (c.listRound Line.wire (Line.token bearers) start) (names, page)).run
        ⟨replies ++ last :: rest, asked⟩ =
      (result, ⟨rest, asked ++ requestsFrom url start bearers asked.length
        (page :: found.map (·.nextPage))⟩) := by
  induction hshows generalizing names page asked with
  | nil =>
    rw [List.flatMap_nil, List.append_nil] at hlast
    rw [List.nil_append, repeatM_turn hurl, hlast]
    rfl
  | cons hr hrest ih =>
    rename_i r l replies found
    obtain ⟨token, hnext, htoken⟩ := hcontinue l List.mem_cons_self
    rw [List.flatMap_cons, ← List.append_assoc] at hlast
    rw [List.cons_append, repeatM_turn hurl, hr.listing, turn_continues hnext htoken]
    dsimp only
    rw [ih (fun l hl => hcontinue l (List.mem_cons_of_mem _ hl)) hlast, List.length_append,
      List.length_singleton, List.append_assoc, List.map_cons, hnext,
      @requestsFrom_cons _ _ _ page]
    rfl

/-- A listing asks for each of its pages once, for the first one without a token and for each later
one by the token of the page before, and its names are those of all pages in their order. A reply
that is no page makes the whole listing fail in its way. In either case nothing more is asked,
whatever other replies there would be. A success that is written for a page is that page; it may
have no items. -/
theorem list_complete (hurl : c.address ["storage", "v1", "b"] none = .ok url)
    {replies : List Http.Reply} {found : List Listing}
    (hshows : List.Forall₂ Shows replies found) (hcontinue : ∀ l ∈ found, l.Continues)
    (last : Http.Reply) (rest : List Http.Reply) :
    let listed := (c.list Line.wire (Line.token bearers) start).run ⟨replies ++ last :: rest, []⟩
    let line : Line := ⟨rest, (none :: found.map (·.nextPage)).mapIdx fun i page =>
      pageRequest url start (bearers i) page⟩
    (∀ l, Shows last l → l.Ends → listed = (.ok ((found ++ [l]).flatMap (·.names)), line)) ∧
    (∀ e, Spoiled last e → listed = (.error e, line)) ∧
    ∀ r l j, r.isSuccess = true → HasMembers l.Parts j → j.Written r.body → Shows r l := by
  have hrun {result : Except StorageError (List String)}
      (hlast : turn (found.flatMap (·.names)) (listing last) = .inr result) :
      (c.list Line.wire (Line.token bearers) start).run ⟨replies ++ last :: rest, []⟩ =
        (result, ⟨rest, (none :: found.map (·.nextPage)).mapIdx fun i page =>
          pageRequest url start (bearers i) page⟩) := by
    have hrounds := @run_listRounds c start url bearers [] none rest [] hurl replies found hshows
      hcontinue last result hlast
    simpa only [list, requestsFrom, List.nil_append, List.length_nil, Nat.zero_add] using hrounds
  refine ⟨fun l hl hends => hrun ?_, fun e he => hrun ?_, fun r l j hsuccess hj hbody =>
    .of_written hsuccess hj hbody⟩
  · rw [hl.listing, turn_ends hends]
    simp
  · rw [he.listing, turn_error]

/-- A success that says something in JSON. -/
def success (members : List (String × Json)) : Http.Reply :=
  ⟨200, (Json.object members).compact.toUTF8⟩

def item (name : String) : Json := .object [("name", .text name), ("size", .text "7")]

/-- A page of two names, and one without items. -/
def twoPages : List Http.Reply :=
  [success [("items", .array [item "o/b", item "o/a"]), ("nextPageToken", .text "t")],
    success [("kind", .text "list"), ("nextPageToken", .text "u")]]

/-- The client of some bucket. -/
def temporary : Client := .new "https://storage.test/" "temp"

/-- The last page has an empty token; a refusal or nonsense instead of it ends the listing as well.
Another reply is left over. -/
theorem list_complete_threePages :
    let asked (page : Option String) : Http.Request :=
      pageRequest "https://storage.test/storage/v1/b/temp/o" "o/" "bearer" page
    let line : Line := ⟨[⟨503, .empty⟩], [asked none, asked (some "t"), asked (some "u")]⟩
    let listed (last : Http.Reply) :=
      (temporary.list Line.wire (Line.token fun _ => "bearer") "o/").run
        ⟨twoPages ++ [last, ⟨503, .empty⟩], []⟩
    listed (success [("items", .array [item "o/c"]), ("nextPageToken", .text "")]) =
        (.ok ["o/b", "o/a", "o/c"], line) ∧
      listed ⟨503, "busy".toUTF8⟩ = (.error (.api 503 "busy"), line) ∧
      listed ⟨200, "busy".toUTF8⟩ = (.error .request, line) ∧
      Shows (success []) ⟨[], none⟩ := by
  have hurl : temporary.address ["storage", "v1", "b"] none =
      .ok "https://storage.test/storage/v1/b/temp/o" := rfl
  have hshows : List.Forall₂ Shows twoPages [⟨["o/b", "o/a"], some "t"⟩, ⟨[], some "u"⟩] :=
    .cons ⟨rfl, rfl⟩ (.cons ⟨rfl, rfl⟩ .nil)
  have hcontinue : ∀ l ∈ [(⟨["o/b", "o/a"], some "t"⟩ : Listing), ⟨[], some "u"⟩], l.Continues := by
    simp [Listing.Continues]
  have hall (last : Http.Reply) := @list_complete temporary "o/" _ (fun _ => "bearer") hurl _ _
    hshows hcontinue last [⟨503, .empty⟩]
  have hbare : HasMembers (Listing.Parts ⟨[], none⟩) (.object []) :=
    ⟨[], rfl, .nil, .inl ⟨rfl, rfl⟩, .missing⟩
  exact ⟨(hall _).1 ⟨["o/c"], some ""⟩ ⟨rfl, rfl⟩ (.inr rfl), (hall _).2.1 _ (.refused rfl),
    (hall _).2.1 _ (.undecodable rfl rfl),
    (hall (success [])).2.2 _ _ _ rfl hbare (Json.written_compact trivial (by decide))⟩

end Client
end Quire.Object
